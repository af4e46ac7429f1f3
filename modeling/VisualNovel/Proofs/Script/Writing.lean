import VisualNovel.Proofs.Script.Compiling

/-!
The text of a written script, line by line.
-/

namespace VisualNovel.Script

open Text

/-- A loop succeeds where each of its rounds does, and its results are theirs. -/
theorem exists_mapM_eq_ok {ε α β γ : Type} {f : α → Except ε β} {g : β → γ} {k : α → γ}
    (xs : List α) (h : ∀ x ∈ xs, ∃ y, f x = .ok y ∧ g y = k x) :
    ∃ ys, xs.mapM f = .ok ys ∧ ys.map g = xs.map k := by
  induction xs with
  | nil => exact ⟨[], rfl, rfl⟩
  | cons x xs ih =>
    obtain ⟨⟨y, hy, hg⟩, hxs⟩ := List.forall_mem_cons.1 h
    obtain ⟨ys, hys, hmap⟩ := ih hxs
    refine ⟨y :: ys, ?_, by rw [List.map_cons, List.map_cons, hg, hmap]⟩
    rw [List.mapM_cons, hy, hys]
    rfl

theorem sceneText_eq {scene : Scene} (hscene : scene.WellFormed) (indent : String) :
    ∃ text, sceneText indent scene = .ok text ∧
      text.toList = ['\n'].intercalate (scene.lines indent.toList) := by
  have hbody := exists_mapM_eq_ok scene.directives (g := String.toList)
    (f := fun d => return indent ++ (← d.directive.written))
    (k := fun d => indent.toList ++ d.directive.line) (fun d hd => by
      obtain ⟨text, hwritten, -⟩ := written_isDirectiveLine (hscene.directives d hd)
      refine ⟨indent ++ text, by rw [hwritten]; rfl, ?_⟩
      simp [Directive.line, hwritten, Except.toOption])
  obtain ⟨body, hbody, hlines⟩ := hbody
  refine ⟨_, by rw [sceneText, hbody]; rfl, ?_⟩
  rw [String.toList_intercalate]
  simp [Scene.lines, hlines]

/-- A well-formed script is written as its lines. -/
theorem written_eq {s : Script} (hs : s.WellFormed) (indent : String) :
    ∃ out, s.written indent = .ok out ∧ out.toList = unlines (s.lines indent.toList) := by
  obtain ⟨blocks, hblocks, hlines⟩ := exists_mapM_eq_ok s.scenes (g := String.toList)
    fun scene hscene => sceneText_eq (hs.scenes scene hscene) indent
  refine ⟨_, by rw [written, hblocks]; rfl, ?_⟩
  rw [String.toList_append, String.toList_intercalate, hlines]
  have hblocks : s.scenes.map (fun scene => ['\n'].intercalate (scene.lines indent.toList)) =
      (s.scenes.map (Scene.lines indent.toList)).map ['\n'].intercalate := by
    rw [List.map_map]
    rfl
  rw [hblocks]
  refine intercalate_blocks (fun lines hmem => ?_) (by simpa using hs.ne_nil)
  obtain ⟨scene, -, rfl⟩ := List.mem_map.1 hmem
  simp [Scene.lines]

/-! ### Reading the lines -/

theorem mem_intercalate {α : Type} {separator : List α} {xs : List (List α)} {a : α}
    (h : a ∈ separator.intercalate xs) : a ∈ separator ∨ ∃ x ∈ xs, a ∈ x := by
  induction xs with
  | nil => simp at h
  | cons x rest ih =>
    cases rest with
    | nil => exact .inr ⟨x, List.mem_cons_self, by simpa using h⟩
    | cons y more =>
      rw [List.intercalate_cons_cons, List.append_assoc, List.mem_append, List.mem_append] at h
      rcases h with hx | hseparator | hmore
      · exact .inr ⟨x, List.mem_cons_self, hx⟩
      · exact .inl hseparator
      · obtain hseparator | ⟨x', hx', ha⟩ := ih hmore
        · exact .inl hseparator
        · exact .inr ⟨x', List.mem_cons_of_mem _ hx', ha⟩

theorem mem_intercalate_of_mem {α : Type} {separator : List α} {xs : List (List α)} {x : List α}
    (hx : x ∈ xs) {a : α} (ha : a ∈ x) : a ∈ separator.intercalate xs := by
  induction xs with
  | nil => cases hx
  | cons y rest ih =>
    cases rest with
    | nil =>
      rw [List.mem_singleton.1 hx] at ha
      simpa using ha
    | cons z more =>
      rw [List.intercalate_cons_cons, List.append_assoc, List.mem_append, List.mem_append]
      rcases List.mem_cons.1 hx with rfl | hrest
      · exact .inl ha
      · exact .inr (.inr (ih hrest))

theorem feed_not_mem_lines {s : Script} (hs : s.WellFormed) {indent : List Char}
    (hindent : '\n' ∉ indent) : ∀ line ∈ s.lines indent, '\n' ∉ line := by
  intro line hline
  obtain hblank | ⟨lines, hlines, hmem⟩ := mem_intercalate hline
  · rw [List.mem_singleton.1 hblank]
    exact List.not_mem_nil
  obtain ⟨scene, hscene, rfl⟩ := List.mem_map.1 hlines
  simp only [Scene.lines, List.cons_append, List.mem_cons, List.mem_append, List.mem_map,
    List.not_mem_nil, or_false] at hmem
  rcases hmem with rfl | ⟨d, hd, rfl⟩ | rfl
  · have hname := feed_not_mem_name (hs.scenes scene hscene).named
    simp [hname]
  · have hfeed := (line_isDirectiveLine ((hs.scenes scene hscene).directives d hd)).no_feed
    simp [hindent, hfeed]
  · decide

/-- The lines of a text that was written line by line. -/
theorem linesOf_unlines {lines : List (List Char)} (h : ∀ line ∈ lines, '\n' ∉ line) :
    linesOf (unlines lines) = numberLines 1 0 lines := by
  unfold linesOf
  rw [splitAtEach_unlines h]
  simp

/-- A script begins with a scene. -/
theorem exists_lines_eq_cons {s : Script} (hs : s.WellFormed) (indent : List Char) :
    ∃ name more, s.lines indent = ('S' :: name) :: more := by
  obtain ⟨scene, rest, hscenes⟩ := List.exists_cons_of_ne_nil hs.ne_nil
  unfold lines
  rw [hscenes, List.map_cons]
  cases rest with
  | nil => exact ⟨_, _, by rw [List.map_nil, List.intercalate_singleton]; rfl⟩
  | cons next more => exact ⟨_, _, by rw [List.map_cons, List.intercalate_cons_cons]; rfl⟩

/-- The lines that are read are those that were written. -/
theorem linesOf_written {s : Script} (hs : s.WellFormed) {indent : List Char}
    (hindent : '\n' ∉ indent) :
    linesOf (dropMark (unlines (s.lines indent))) = numberLines 1 0 (s.lines indent) := by
  have hmark : dropMark (unlines (s.lines indent)) = unlines (s.lines indent) := by
    obtain ⟨name, more, hlines⟩ := exists_lines_eq_cons hs indent
    rw [hlines]
    rfl
  rw [hmark, linesOf_unlines (feed_not_mem_lines hs hindent)]

end VisualNovel.Script

import VisualNovel.Proofs.Script.Locating

/-!
The first line that is refused decides what is reported. Nothing behind it counts, no second scene
of one name, no jump to nowhere and no curtain that is missing; and there is no mistake in front of
it, for the lines there are a text of their own once a curtain closes the scene that is still open.
Main statement: `compile_first_mistake`.
-/

namespace VisualNovel.Script

open Text

/-! ### Errors of a line -/

/-- The line that an error is about. -/
def CompileError.line : CompileError → Int
  | .malformed e => e.line
  | .unsound e => e.line
  | .incomplete _ => 0

/-- An error that is found while a line is read: a mistake, unless it is one of the two that only
    the end of the text shows, or a second scene of one name. -/
def CompileError.WhileReading : CompileError → Prop
  | .malformed e => e.mistake ≠ .noScenes ∧ ∀ scene, e.mistake ≠ .missingCurtain scene
  | .unsound e => ∃ scene, e.problem = .duplicateScene scene
  | .incomplete _ => False

variable {source : Option String} {p p' : Progress} {line : Line} {lines : List Line}
  {raws : List (List Char)} {e : CompileError}

theorem finish_not_whileReading (h : p.finish source = .error e) : ¬ e.WhileReading := by
  intro hreading
  unfold Progress.finish at h
  split at h
  · next scene line _ _ =>
    cases h
    exact hreading.2 scene.name rfl
  · next scene _ _ =>
    cases h
    exact hreading.2 scene.name rfl
  · split at h
    · cases h
      exact hreading.1 rfl
    · cases h

theorem validate_not_whileReading {s : Script} (h : s.validate = .error e) : ¬ e.WhileReading := by
  intro hreading
  obtain ⟨flaw, rfl, hflaw⟩ | ⟨flaw, rfl⟩ := validate_eq_error h
  · obtain ⟨scene, hscene⟩ := hreading
    exact hflaw scene hscene
  · exact hreading

/-- What a line is refused for is about that line. -/
theorem Progress.step_error_line (h : p.step source line = .error e) : e.line = line.number := by
  obtain ⟨flaw, -, rfl⟩ | ⟨scene, rfl⟩ := Progress.step_eq_error h
  · rfl
  · rfl

/-- Something stands on a line that is refused. -/
theorem Progress.step_error_ne_nil (h : p.step source line = .error e) : line.text ≠ [] := by
  intro hnil
  rw [step_blank hnil] at h
  cases h

/-! ### The same first lines -/

/-- What stands between the line feeds of a text, without the byte order mark it may begin with. -/
def rawLines (text : String) : List (List Char) := splitAtEach '\n' (dropMark text.toList)

/-- A text with the same lines up to one that is refused is refused for that line. -/
theorem compile_eq_error_of_refused {text : String} {before after : List (List Char)}
    {raw : List Char} (h : rawLines text = before ++ raw :: after) (hraw : raw ≠ [])
    (hfold : (numberLines 1 0 before).foldlM (Progress.step source) {} = .ok p)
    (hstep : p.step source ⟨before.length + 1, dropReturn raw, utf8Length (unlines before)⟩ =
      .error e) : compile text source = .error e := by
  obtain ⟨rest, hlines⟩ := exists_linesOf_eq h hraw
  exact compile_eq_error_iff.2 (.inl (foldlM_eq_error_iff.2 ⟨_, _, rest, p, hlines, hfold, hstep⟩))

/-! ### Scenes in lines -/

/-- Whether a scene is open behind a line, if it tells whether one is in front of it. -/
def openBehind (isOpen : Bool) (line : List Char) : Bool :=
  if opensScene (trim line) then true
  else if trim line == "CURTAIN".toList then false
  else isOpen

/-- The lines, and a curtain behind them if a scene is open there. -/
def curtained (lines : List (List Char)) : List (List Char) :=
  if lines.foldl openBehind false then lines ++ ["CURTAIN".toList] else lines

/-- Whether a scene has begun. -/
def Progress.hasScene (p : Progress) : Bool := !p.closed.isEmpty || p.current.isSome

theorem opensScene_of_isIdle {text : List Char} (h : isIdle text) : opensScene text = false := by
  rw [Bool.eq_false_iff]
  intro hopens
  rw [isIdle_of_opensScene hopens] at h
  cases h

theorem Progress.Takes.isSome_current (h : p.Takes line p') :
    p'.current.isSome = openBehind p.current.isSome line.text := by
  unfold openBehind
  cases h with
  | idle hidle =>
    have hcurtain : trim line.text ≠ "CURTAIN".toList := by
      intro hcurtain
      rw [hcurtain] at hidle
      cases hidle
    rw [opensScene_of_isIdle hidle, beq_eq_false_iff_ne.2 hcurtain]
    rfl
  | opens hopens _ _ _ => rw [if_pos hopens, Option.isSome_some]
  | closes hcurtain _ =>
    rw [hcurtain]
    rfl
  | tells _ hopens hcurtain hcurrent _ =>
    rw [hopens, beq_eq_false_iff_ne.2 hcurtain, hcurrent]
    rfl

theorem Progress.Takes.hasScene_eq (h : p.Takes line p') :
    p'.hasScene = (p.hasScene || opensScene (trim line.text)) := by
  unfold Progress.hasScene
  cases h with
  | idle hidle => rw [opensScene_of_isIdle hidle, Bool.or_false]
  | opens hopens _ _ _ => simp [hopens]
  | closes _ hcurrent => simp [hcurrent]
  | tells _ _ _ hcurrent _ => simp [hcurrent]

/-- What is open behind some lines, and whether a scene has begun in them. -/
theorem scenes_of_foldlM (h : lines.foldlM (Progress.step source) p = .ok p') :
    p'.current.isSome = (lines.map (·.text)).foldl openBehind p.current.isSome ∧
      p'.hasScene = (p.hasScene || (lines.map (·.text)).any fun text => opensScene (trim text)) := by
  induction lines generalizing p with
  | nil =>
    cases h
    exact ⟨rfl, (Bool.or_false _).symm⟩
  | cons line lines ih =>
    obtain ⟨next, htakes, hrest⟩ := foldlM_cons_eq_ok.1 h
    obtain ⟨hopen, hscene⟩ := ih hrest
    rw [htakes.isSome_current] at hopen
    rw [htakes.hasScene_eq, Bool.or_assoc] at hscene
    exact ⟨hopen, hscene⟩

/-- The same of the lines of a text, carriage returns and all. -/
theorem scenes_of_foldlM_numberLines
    (h : (numberLines 1 0 raws).foldlM (Progress.step source) {} = .ok p) :
    p.current.isSome = raws.foldl openBehind false ∧
      p.hasScene = raws.any fun raw => opensScene (trim raw) := by
  have hscenes := scenes_of_foldlM h
  have hreturn : (fun isOpen raw => openBehind isOpen (dropReturn raw)) = openBehind := by
    funext isOpen raw
    rw [openBehind, trim_dropReturn, openBehind]
  rw [numberLines_text, List.foldl_map, hreturn, List.any_map] at hscenes
  refine ⟨hscenes.1, hscenes.2.trans ?_⟩
  simp only [Function.comp_def, trim_dropReturn]
  rfl

/-- Behind lines that are not refused the scene that is open can be closed. -/
theorem exists_foldlM_curtained
    (hfold : (numberLines 1 0 raws).foldlM (Progress.step source) {} = .ok p)
    (hscene : ∃ raw ∈ raws, opensScene (trim raw)) :
    ∃ p', (numberLines 1 0 (curtained raws)).foldlM (Progress.step source) {} = .ok p' ∧
      p'.current = none ∧ p'.closed ≠ [] := by
  obtain ⟨hopen, hhas⟩ := scenes_of_foldlM_numberLines hfold
  rw [List.any_eq_true.2 hscene, Progress.hasScene] at hhas
  unfold curtained
  cases hcurrent : p.current with
  | none =>
    rw [hcurrent, Option.isSome_none] at hopen
    rw [← hopen]
    refine ⟨p, hfold, hcurrent, ?_⟩
    simpa [hcurrent] using hhas
  | some scene =>
    rw [hcurrent, Option.isSome_some] at hopen
    rw [← hopen, if_pos rfl, numberLines_append, List.foldlM_append, hfold]
    exact ⟨_, foldlM_cons_eq_ok.2 ⟨_, .closes rfl hcurrent, rfl⟩, rfl, by simp⟩

/-- Lines that are not refused are read as a script once the scene that is open is closed, if a
    scene begins in them. -/
theorem parse_curtained (hfeed : ∀ raw ∈ raws, '\n' ∉ raw)
    (hfold : (numberLines 1 0 raws).foldlM (Progress.step source) {} = .ok p)
    (hscene : ∃ raw ∈ raws, opensScene (trim raw)) :
    ∃ s, parse (String.ofList (unlines (curtained raws))) source = .ok s := by
  obtain ⟨p', hfold', hcurrent, hclosed⟩ := exists_foldlM_curtained hfold hscene
  have hfeed' : ∀ raw ∈ curtained raws, '\n' ∉ raw := by
    unfold curtained
    split
    · exact List.forall_mem_append.2 ⟨hfeed, List.forall_mem_singleton.2 (by decide)⟩
    · exact hfeed
  have hmark : (unlines (curtained raws)).head? ≠ some '\ufeff' := by
    have hmarks := head_ne_mark_of_foldlM hfold'
    rw [numberLines_text, said_map_dropReturn] at hmarks
    refine head_ne_mark_of_said ?_
    rw [splitAtEach_unlines hfeed', said_append]
    exact List.forall_mem_append.2 ⟨hmarks, by simp [said_cons, isIdle, trim, trimStart, trimEnd]⟩
  refine ⟨_, parse_eq_ok_iff.2 ⟨p', ?_, finish_eq_ok_iff.2 ⟨hcurrent, hclosed, rfl⟩⟩⟩
  rw [String.toList_ofList, dropMark_eq_self hmark, linesOf_unlines hfeed', hfold']

/-- What is read as a script has no mistake, though its jumps may go nowhere. -/
theorem compile_ne_malformed {text : String} {s : Script} (h : parse text source = .ok s)
    (m : SyntaxError) : compile text source ≠ .error (.malformed m) := by
  intro hcompile
  rw [compile_eq, h] at hcompile
  have hvalidated : (s.validate >>= fun _ => Except.ok s) = .error (.malformed m) := hcompile
  obtain hvalid | ⟨u, -, hok⟩ := bind_eq_error.1 hvalidated
  · exact validate_ne_malformed s hvalid
  · cases hok

/-! ### The first mistake -/

/-- The first lines of a text as a text, with a curtain behind them if a scene is open there. -/
def firstLines (text : String) (count : Nat) : String :=
  String.ofList (unlines (curtained ((rawLines text).take count)))

/-- An error that is found at a line of a text is found there in every text with the same lines up
    to this one. The lines in front of it have no mistake: with a curtain for the scene that is still
    open they are read as a script, if a scene begins in them. -/
theorem compile_first_mistake {text : String} {source : Option String} {e : CompileError}
    (h : compile text source = .error e) (hreading : e.WhileReading) :
    ∃ k : Nat, 0 < k ∧ k ≤ (rawLines text).length ∧ e.line = k ∧
      (∀ other, (rawLines other).take k = (rawLines text).take k →
        compile other source = .error e) ∧
      ((∃ raw ∈ (rawLines text).take (k - 1), opensScene (trim raw)) →
        (∃ s, parse (firstLines text (k - 1)) source = .ok s) ∧
          ∀ m, compile (firstLines text (k - 1)) source ≠ .error (.malformed m)) := by
  obtain hfold | ⟨p, -, hfinish | ⟨s, -, hvalid⟩⟩ := compile_eq_error_iff.1 h
  · obtain ⟨front, line, rest, p, hlines, hfront, hstep⟩ := foldlM_eq_error_iff.1 hfold
    obtain ⟨before, raw, after, hraws, rfl, rfl⟩ := linesOf_eq_append_cons hlines
    have htext : rawLines text = before ++ raw :: after := hraws
    have hraw : raw ≠ [] := by
      rintro rfl
      exact Progress.step_error_ne_nil hstep rfl
    refine ⟨before.length + 1, by omega, by simp [htext], Progress.step_error_line hstep, ?_, ?_⟩
    · intro other hsame
      have hother := List.take_append_drop (before.length + 1) (rawLines other)
      rw [hsame, htext, List.append_cons, List.take_left' (by simp), ← List.append_cons] at hother
      exact compile_eq_error_of_refused hother.symm hraw hfront hstep
    · rw [Nat.add_sub_cancel, firstLines, htext, List.take_left]
      intro hscene
      have hfeed : ∀ raw ∈ before, '\n' ∉ raw := fun raw hmem =>
        not_mem_of_mem_splitAtEach (hraws ▸ List.mem_append_left _ hmem)
      obtain ⟨s, hparse⟩ := parse_curtained hfeed hfront hscene
      exact ⟨⟨s, hparse⟩, compile_ne_malformed hparse⟩
  · exact absurd hreading (finish_not_whileReading hfinish)
  · exact absurd hreading (validate_not_whileReading hvalid)

/-- A second scene begins where the first one is still open, and more is wrong behind it. -/
theorem compile_first_mistake_nested_scene :
    let e : CompileError :=
      .malformed ⟨.missingCurtainBeforeScene "a", none, 3, 1, 21, "SCENE"⟩
    compile "SCENE a\n  Nayu: \"Hi\"\nSCENE b\nrest" = .error e ∧ e.WhileReading ∧
      compile "SCENE a\n  Nayu: \"Hi\"\nSCENE b" = .error e ∧
      ∃ s, parse "SCENE a\n  Nayu: \"Hi\"\nCURTAIN\n" = .ok s := by
  intro e
  have hcompile : compile "SCENE a\n  Nayu: \"Hi\"\nSCENE b\nrest" = .error e :=
    eq_error_of_errorOf? (by decide +kernel)
  have hreading : e.WhileReading := ⟨nofun, nofun⟩
  obtain ⟨k, -, -, hk, hsame, hfront⟩ := compile_first_mistake hcompile hreading
  obtain rfl : k = 3 := (Int.ofNat_inj.1 hk).symm
  have hscene : ∃ raw ∈ (rawLines "SCENE a\n  Nayu: \"Hi\"\nSCENE b\nrest").take 2,
      opensScene (trim raw) := ⟨"SCENE a".toList, by decide, by decide⟩
  have hlines : firstLines "SCENE a\n  Nayu: \"Hi\"\nSCENE b\nrest" 2 =
      "SCENE a\n  Nayu: \"Hi\"\nCURTAIN\n" := by decide
  have hparse := (hfront hscene).1
  rw [hlines] at hparse
  exact ⟨hcompile, hreading, hsame _ (by decide), hparse⟩

end VisualNovel.Script

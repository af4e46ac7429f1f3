import VisualNovel.Proofs.Script.Lines

/-!
Compiling the lines of a written script, scene by scene and directive by directive.
-/

namespace VisualNovel

/-- The line that is written for a directive. -/
def Directive.line (d : Directive) : List Char := (d.written.toOption.getD "").toList

/-- The lines that are written for a scene. -/
def Scene.lines (indent : List Char) (s : Scene) : List (List Char) :=
  ("SCENE ".toList ++ s.name.toList) ::
    (s.directives.map fun d => indent ++ d.directive.line) ++ ["CURTAIN".toList]

/-- The lines that are written for a script, with a blank one between two scenes. -/
def Script.lines (indent : List Char) (s : Script) : List (List Char) :=
  [[]].intercalate (s.scenes.map (Scene.lines indent))

namespace Script

open Text

variable {source : Option String} {indent : List Char} {p : Progress}

/-! ### Directives -/

theorem line_isDirectiveLine {d : Directive} (hd : d.WellFormed) : IsDirectiveLine d.line := by
  obtain ⟨text, hwritten, htext⟩ := written_isDirectiveLine hd
  unfold Directive.line
  rw [hwritten]
  exact htext

theorem directive_line {d : Directive} (hd : d.WellFormed) (hplain : d.Plain) :
    ∃ d', directive d.line = .ok d' ∧ d == d' := by
  obtain ⟨text, hwritten, -⟩ := written_isDirectiveLine hd
  unfold Directive.line
  rw [hwritten]
  exact directive_written hd hplain hwritten

theorem dropReturn_append_singleton {front : List Char} {c : Char} (hc : c ≠ '\r') :
    dropReturn (front ++ [c]) = front ++ [c] := by
  simp [dropReturn, hc]

/-- A directive line has no carriage return at its end. -/
theorem dropReturn_directive {text : List Char} (htext : IsDirectiveLine text) :
    dropReturn (indent ++ text) = indent ++ text := by
  obtain ⟨front, c, rfl, hc⟩ := htext.ends
  rw [← List.append_assoc]
  refine dropReturn_append_singleton ?_
  rintro rfl
  exact absurd hc (by decide)

theorem foldlM_cons_of_ok {line : Line} {lines : List Line} {p' : Progress}
    (h : p.step source line = .ok p') :
    (line :: lines).foldlM (Progress.step source) p = lines.foldlM (Progress.step source) p' := by
  rw [List.foldlM_cons, h]
  rfl

variable (source)

/-- The directives of a scene are compiled one after the other. What comes behind them is compiled
    as if it stood alone. -/
theorem fold_directives (hindent : ∀ c ∈ indent, isBlank c) {ds : List Numbered}
    (hds : ∀ d ∈ ds, d.directive.WellFormed ∧ d.directive.Plain) {scene : OpenScene}
    (hcurrent : p.current = some scene) (number offset : Nat) :
    ∃ (ds' : List Numbered) (last : Option Line) (number' offset' : Nat),
      ds.map (·.directive) == ds'.map (·.directive) ∧
      ∀ rest, (numberLines number offset
          ((ds.map fun d => indent ++ d.directive.line) ++ rest)).foldlM (Progress.step source) p =
        (numberLines number' offset' rest).foldlM (Progress.step source)
          { p with
            current := some { scene with reversed := ds'.reverse ++ scene.reversed }
            last := last } := by
  induction ds generalizing p scene number offset with
  | nil =>
    refine ⟨[], p.last, number, offset, rfl, fun rest => ?_⟩
    show (numberLines number offset rest).foldlM (Progress.step source) p =
      (numberLines number offset rest).foldlM (Progress.step source) { p with current := some scene }
    rw [← hcurrent]
  | cons d ds ih =>
    obtain ⟨⟨hd, hplain⟩, hds⟩ := List.forall_mem_cons.1 hds
    obtain ⟨d', hread, hbeq⟩ := directive_line hd hplain
    have hline := line_isDirectiveLine hd
    obtain ⟨ds', last, number', offset', hall, hfold⟩ := ih hds
      (p := { p with
        current := some { scene with reversed := ⟨d', number⟩ :: scene.reversed }
        last := some ⟨number, indent ++ d.directive.line, offset⟩ }) rfl (number + 1)
        (offset + utf8Length (indent ++ d.directive.line) + 1)
    refine ⟨⟨d', number⟩ :: ds', last, number', offset', ?_, fun rest => ?_⟩
    · simp [hbeq, hall]
    · rw [List.map_cons, List.cons_append, numberLines, dropReturn_directive hline]
      rw [foldlM_cons_of_ok (step_directive hcurrent rfl hindent hline hread), hfold rest]
      simp

/-! ### Scenes -/

theorem dropReturn_scene {name : String} (hname : IsName name) :
    dropReturn ("SCENE ".toList ++ name.toList) = "SCENE ".toList ++ name.toList := by
  obtain ⟨front, last, heq, hlast⟩ := exists_append_name hname "SCENE ".toList
  rw [heq]
  refine dropReturn_append_singleton ?_
  rintro rfl
  exact absurd hlast (by decide)

/-- A scene is compiled between two others. -/
theorem fold_scene (hindent : ∀ c ∈ indent, isBlank c) {scene : Scene} (hscene : scene.WellFormed)
    (hplain : ∀ d ∈ scene.directives, d.directive.Plain) (hcurrent : p.current = none)
    (hnew : ∀ closed ∈ p.closed, closed.name ≠ scene.name) (number offset : Nat) :
    ∃ (scene' : Scene) (last : Option Line) (number' offset' : Nat), scene.same scene' ∧
      ∀ rest, (numberLines number offset (scene.lines indent ++ rest)).foldlM
          (Progress.step source) p =
        (numberLines number' offset' rest).foldlM (Progress.step source)
          { closed := p.closed ++ [scene'], current := none, last } := by
  obtain ⟨first, hfirst⟩ : ∃ first : Line,
    first = ⟨number, "SCENE ".toList ++ scene.name.toList, offset⟩ := ⟨_, rfl⟩
  obtain ⟨ds, last, number', offset', hsame, hfold⟩ := fold_directives source hindent
    (fun d hd => ⟨hscene.directives d hd, hplain d hd⟩)
    (p := { p with current := some ⟨scene.name, [], number⟩, last := some first }) rfl (number + 1)
    (offset + utf8Length ("SCENE ".toList ++ scene.name.toList) + 1)
  refine ⟨⟨scene.name, ds, number⟩, some ⟨number', "CURTAIN".toList, offset'⟩, number' + 1,
    offset' + utf8Length "CURTAIN".toList + 1, ?_, fun rest => ?_⟩
  · simp [Scene.same, hsame]
  · rw [Scene.lines, List.append_assoc, List.cons_append, numberLines, dropReturn_scene hscene.named,
      ← hfirst, foldlM_cons_of_ok (step_opens hcurrent (by rw [hfirst]) hscene.named hnew)]
    rw [show first.number = number by rw [hfirst], hfold]
    simp only [List.singleton_append, numberLines]
    rw [foldlM_cons_of_ok (step_closes rfl rfl)]
    simp only [List.append_nil, List.reverse_reverse]
    rfl

theorem name_of_same {scene scene' : Scene} (h : scene.same scene') : scene'.name = scene.name := by
  simp only [Scene.same, Bool.and_eq_true, beq_iff_eq] at h
  exact h.1.symm

/-- Scenes under new and distinct names are compiled one after the other. -/
theorem fold_scenes (hindent : ∀ c ∈ indent, isBlank c) {scenes : List Scene}
    (hscenes : ∀ scene ∈ scenes, scene.WellFormed ∧ ∀ d ∈ scene.directives, d.directive.Plain)
    (hcurrent : p.current = none) (hnames : ((p.closed ++ scenes).map (·.name)).Nodup)
    (number offset : Nat) :
    ∃ (scenes' : List Scene) (last : Option Line),
      List.Forall₂ (fun scene scene' => scene.same scene') scenes scenes' ∧
      (numberLines number offset ([[]].intercalate (scenes.map (Scene.lines indent)))).foldlM
          (Progress.step source) p =
        .ok { closed := p.closed ++ scenes', current := none, last } := by
  induction scenes generalizing p number offset with
  | nil =>
    refine ⟨[], p.last, .nil, ?_⟩
    rw [List.append_nil, ← hcurrent]
    rfl
  | cons scene rest ih =>
    obtain ⟨⟨hscene, hplain⟩, hrest⟩ := List.forall_mem_cons.1 hscenes
    have hnew : ∀ closed ∈ p.closed, closed.name ≠ scene.name := by
      intro closed hclosed heq
      rw [List.map_append, List.nodup_append] at hnames
      exact hnames.2.2 _ (List.mem_map_of_mem hclosed) _ (by simp) heq
    obtain ⟨scene', last, number', offset', hsame, hfold⟩ :=
      fold_scene source hindent hscene hplain hcurrent hnew number offset
    have hnames' : ((p.closed ++ [scene'] ++ rest).map (·.name)).Nodup := by
      simpa [name_of_same hsame] using hnames
    cases rest with
    | nil =>
      refine ⟨[scene'], last, .cons hsame .nil, ?_⟩
      have hlast := hfold []
      rw [List.append_nil] at hlast
      rw [List.map_singleton, List.intercalate_singleton, hlast]
      rfl
    | cons next more =>
      obtain ⟨scenes', last', hall, hmore⟩ := ih hrest
        (p := { closed := p.closed ++ [scene'], current := none, last := some ⟨number', [], offset'⟩ })
        rfl hnames' (number' + 1) (offset' + 1)
      refine ⟨scene' :: scenes', last', .cons hsame hall, ?_⟩
      simp only [List.map_cons] at hmore ⊢
      rw [List.intercalate_cons_cons, List.append_assoc, hfold, List.singleton_append, numberLines,
        foldlM_cons_of_ok (step_blank rfl)]
      refine hmore.trans ?_
      rw [List.append_assoc, List.singleton_append]

end Script

end VisualNovel

import VisualNovel.Proofs.Script.Directives
import VisualNovel.Proofs.Text.Lines

/-!
The lines of a script, written and read: what each line of a written script does to what has been
compiled before it.
-/

namespace VisualNovel

namespace Script

open Text

variable {source : Option String} {p : Progress} {line : Line}

/-! ### One line -/

/-- A blank line changes nothing. -/
theorem step_blank (hline : line.text = []) :
    p.step source line = .ok { p with last := some line } := by
  unfold Progress.step
  rw [hline]
  rfl

/-- What stands on a directive line is never blank, a comment or the end of a scene. -/
theorem step_directive_eq {text blanks : List Char} (hline : line.text = blanks ++ text)
    (hblanks : ∀ c ∈ blanks, isBlank c) (htext : IsDirectiveLine text) :
    p.step source line = (match p.current with
      | none => .error (.malformed (line.locate source
          ⟨.expectedSceneLine, text, (words text).headD []⟩))
      | some scene =>
        match directive text with
        | .error flaw => .error (.malformed (line.locate source flaw))
        | .ok d => .ok { p with
            current := some { scene with reversed := ⟨d, line.number⟩ :: scene.reversed }
            last := some line }) := by
  obtain ⟨c, rest, hfirst, -, hslash⟩ := htext.begins
  have hcomment : (text.isEmpty || text.take 2 == ['/', '/']) = false := by
    rw [hfirst]
    cases rest <;> simp [hslash]
  have hcurtain : (text == "CURTAIN".toList) = false := beq_eq_false_iff_ne.2 htext.ne_curtain
  unfold Progress.step
  simp only [hline, htext.trimStart hblanks, htext.trimEnd, hcomment, htext.opens_no_scene,
    hcurtain]
  cases p.current with
  | none => rfl
  | some scene =>
    dsimp only
    cases directive text <;> rfl

/-- A directive on a line goes to the scene that is open. -/
theorem step_directive {scene : OpenScene} {d : Directive} {text blanks : List Char}
    (hcurrent : p.current = some scene) (hline : line.text = blanks ++ text)
    (hblanks : ∀ c ∈ blanks, isBlank c) (htext : IsDirectiveLine text)
    (hd : directive text = .ok d) :
    p.step source line = .ok { p with
      current := some { scene with reversed := ⟨d, line.number⟩ :: scene.reversed }
      last := some line } := by
  rw [step_directive_eq hline hblanks htext, hcurrent]
  dsimp only
  rw [hd]

/-- A flawed directive ends the compilation, inside a scene or outside. -/
theorem step_flaw {flaw : Flaw} {text blanks : List Char} (hline : line.text = blanks ++ text)
    (hblanks : ∀ c ∈ blanks, isBlank c) (htext : IsDirectiveLine text)
    (hflaw : directive text = .error flaw) : ∃ e, p.step source line = .error e := by
  rw [step_directive_eq hline hblanks htext]
  cases p.current with
  | none => exact ⟨_, rfl⟩
  | some scene =>
    dsimp only
    rw [hflaw]
    exact ⟨_, rfl⟩

theorem sceneName?_scene {name : String} (hname : IsName name) :
    sceneName? ("SCENE ".toList ++ name.toList) = some name.toList := by
  have hisName : isName name.toList := hname
  have hblank {cs : List Char} (hcs : isName cs) : ∀ c ∈ cs, isBlank c = false := fun c hc =>
    isBlank_eq_false_of_isNameChar (isNameChar_of_mem_name hcs c hc)
  have hlast : words name.toList = [name.toList] := by
    have hwords : words (name.toList ++ []) = name.toList :: words [] :=
      words_append (ne_nil_of_isName hisName) (hblank hisName) (by simp)
    rwa [List.append_nil] at hwords
  have hfirst : words ("SCENE".toList ++ ' ' :: name.toList) =
      "SCENE".toList :: words (' ' :: name.toList) :=
    words_append (by decide) (hblank (by decide)) (by simp [isBlank])
  have hwords : words ("SCENE ".toList ++ name.toList) = ["SCENE".toList, name.toList] := by
    rw [← hlast]
    exact hfirst
  unfold sceneName?
  rw [hwords]
  simp [hisName]

/-- A name ends a text with a character of its own. -/
theorem exists_append_name {name : String} (hname : IsName name) (text : List Char) :
    ∃ front last, text ++ name.toList = front ++ [last] ∧ isNameChar last := by
  obtain ⟨front, last, hlast⟩ :=
    List.eq_nil_or_concat name.toList |>.resolve_left (ne_nil_of_isName hname)
  refine ⟨text ++ front, last, by simp [hlast], isNameChar_of_mem_name hname last ?_⟩
  simp [hlast]

/-- A scene line opens the scene that it names. -/
theorem step_opens {name : String} (hcurrent : p.current = none)
    (hline : line.text = "SCENE ".toList ++ name.toList) (hname : IsName name)
    (hnew : ∀ scene ∈ p.closed, scene.name ≠ name) :
    p.step source line =
      .ok { p with current := some ⟨name, [], line.number⟩, last := some line } := by
  have htrim : trimEnd ("SCENE ".toList ++ name.toList) = "SCENE ".toList ++ name.toList := by
    obtain ⟨front, last, heq, hlast⟩ := exists_append_name hname "SCENE ".toList
    rw [heq]
    exact trimEnd_append_singleton (isBlank_eq_false_of_isNameChar hlast)
  have hstart : trimStart ("SCENE ".toList ++ name.toList) = "SCENE ".toList ++ name.toList :=
    trimStart_of_ends (by simp [Ends, isBlank])
  have hopens : opensScene ("SCENE ".toList ++ name.toList) := by
    show !isNameChar ' '
    decide
  have hcomment : (("SCENE ".toList ++ name.toList).isEmpty ||
      ("SCENE ".toList ++ name.toList).take 2 == ['/', '/']) = false := rfl
  have hfresh : (p.closed.any fun s => s.name == name) = false := by
    simpa [List.any_eq_false] using hnew
  unfold Progress.step
  simp only [hline, hstart, htrim, hcomment, hopens, hcurrent, sceneName?_scene hname,
    String.ofList_toList, hfresh]
  rfl

/-- The end of a scene closes the one that is open. -/
theorem step_closes {scene : OpenScene} (hcurrent : p.current = some scene)
    (hline : line.text = "CURTAIN".toList) :
    p.step source line = .ok
      { closed := p.closed ++ [⟨scene.name, scene.reversed.reverse, scene.line⟩]
        current := none
        last := some line } := by
  unfold Progress.step
  simp only [hline, hcurrent]
  rfl

end Script

end VisualNovel

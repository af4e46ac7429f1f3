import VisualNovel.Proofs.Script.Writing
import VisualNovel.Story.Story

/-!
The echo of a directive in the transcript. Put between the first line of a scene and its curtain,
it is a script, and that script says just the directive.
-/

namespace VisualNovel

namespace Script

open Text

/-- The text of a scene with a single line in it. -/
def around (name line : String) : String := "SCENE " ++ name ++ "\n" ++ line ++ "\nCURTAIN\n"

/-- A scene with a single directive, which stands on the second line of its text. -/
def only (name : String) (d : Directive) (source : Option String) : Script :=
  { scenes := [{ name, directives := [⟨d, 2⟩], line := 1 }], name := source.getD "" }

theorem toList_around (name line : String) : (around name line).toList =
    unlines ["SCENE ".toList ++ name.toList, line.toList, "CURTAIN".toList] := by
  simp [around, unlines]

/-- A line that is read as a directive is read as that directive when it stands alone in a scene. -/
theorem parse_around {name line : String} {d : Directive} (hname : IsName name)
    (hline : IsDirectiveLine line.toList) (hread : directive line.toList = .ok d)
    (source : Option String) : parse (around name line) source = .ok (only name d source) := by
  have hfeed : ∀ l ∈ ["SCENE ".toList ++ name.toList, line.toList, "CURTAIN".toList], '\n' ∉ l := by
    have hname := feed_not_mem_name hname
    have hline := hline.no_feed
    simp [hname, hline]
  have hlines : linesOf (dropMark (around name line).toList) =
      numberLines 1 0 ["SCENE ".toList ++ name.toList, line.toList, "CURTAIN".toList] := by
    rw [toList_around]
    exact linesOf_unlines hfeed
  have hnone : ∀ scene ∈ ([] : List Scene), scene.name ≠ name := by simp
  have hreturn : dropReturn ([] ++ line.toList) = [] ++ line.toList := dropReturn_directive hline
  have hblanks : ∀ c ∈ ([] : List Char), isBlank c := by simp
  unfold parse
  rw [hlines]
  simp only [numberLines]
  rw [foldlM_cons_of_ok (step_opens rfl (dropReturn_scene hname) hname hnone),
    foldlM_cons_of_ok (step_directive rfl hreturn hblanks hline hread),
    foldlM_cons_of_ok (step_closes rfl rfl)]
  rfl

theorem compile_around {name line : String} {d : Directive} (hname : IsName name)
    (hline : IsDirectiveLine line.toList) (hread : directive line.toList = .ok d)
    (hstage : ∀ direction, d ≠ .stage direction) (source : Option String) :
    compile (around name line) source = .ok (only name d source) := by
  have hvalid : (only name d source).validate = .ok () := by
    refine validate_eq_ok_iff.2 ⟨List.cons_ne_nil _ _, ?_⟩
    intro scene hscene n hn direction hdirection
    cases List.mem_singleton.1 hscene
    cases List.mem_singleton.1 hn
    exact absurd hdirection (hstage direction)
  unfold compile
  rw [parse_around hname hline hread]
  show ((only name d source).validate >>= fun _ => pure (only name d source)) = _
  rw [hvalid]
  rfl

end Script

/-- The echo of a directive, alone in a scene of any name, is a script that says the directive. -/
theorem compile_echo {d : Directive} (hd : d.WellFormed) {resolved : Resolved} {e : HistoryEntry}
    (he : Story.entry? d resolved = some e) {name : String} (hname : IsName name)
    (source : Option String) :
    Script.compile (Script.around name e.echo) source = .ok (Script.only name d source) := by
  cases d with
  | dialogue line =>
    cases he
    refine Script.compile_around hname (Script.dialogue_isDirectiveLine hd) ?_ (by simp) source
    rw [← Script.dialogue_written hd, Script.toList_dialogue hd]
    exact Script.directive_name (Script.label_isName hd.speaker).1 _
  | log message =>
    cases he
    refine Script.compile_around hname (Script.log_isDirectiveLine hd) ?_ (by simp) source
    rw [← Script.logEntry_written hd, Script.toList_writtenLog]
    rfl
  | stage d => cases he

end VisualNovel

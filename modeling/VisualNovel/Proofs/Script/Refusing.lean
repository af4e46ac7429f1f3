import VisualNovel.Proofs.Script.Exponents
import VisualNovel.Proofs.Script.Writing

/-!
A written script with a number that is not plain is refused: the line with that number is flawed
wherever it stands, and no line before it or behind it mends that.
-/

namespace VisualNovel.Script

open Text

variable {source : Option String}

/-- What a stage direction is read from. -/
theorem stageDirection_eq_ok {text : List Char} {d : Directive} (h : stageDirection text = .ok d) :
    ∃ ts after direction, tokens text.tail = .ok (ts, after) ∧ phrase ts = .ok direction := by
  simp only [stageDirection, bind, Except.bind] at h
  split at h
  · cases h
  · next out htokens =>
    obtain ⟨ts, after⟩ := out
    dsimp only at h
    split at h
    · cases h
    · split at h
      · cases h
      · split at h
        · cases h
        · next direction hphrase => exact ⟨ts, after, direction, htokens, hphrase⟩

/-- A written directive that is not plain is flawed. -/
theorem directive_of_not_plain {d : Directive} (hd : d.WellFormed) (hnot : ¬ d.Plain) :
    ∃ flaw, directive d.line = .error flaw := by
  cases d with
  | dialogue d => exact absurd (by simp [Directive.Plain, Directive.numbers]) hnot
  | log message => exact absurd (by simp [Directive.Plain, Directive.numbers]) hnot
  | stage d =>
    obtain ⟨p, hp, rfl⟩ := hd
    obtain ⟨text, hwritten, htext⟩ := p.written
    have hline : (Directive.stage p.direction).line =
        '(' :: ((Chunk.row p.chunks).tail ++ [')']) := by
      rw [← htext, Directive.line, Directive.written, hwritten]
      rfl
    rw [hline]
    show ∃ flaw, stageDirection _ = .error flaw
    cases hread : stageDirection ('(' :: ((Chunk.row p.chunks).tail ++ [')'])) with
    | error flaw => exact ⟨flaw, rfl⟩
    | ok d' =>
      obtain ⟨ts, after, direction, htokens, hphrase⟩ := stageDirection_eq_ok hread
      rw [List.tail_cons, tokens_phrase] at htokens
      exact absurd hphrase (phrase_of_not_plain hp hnot htokens direction)

theorem mem_numberLines {raw : List Char} {raws : List (List Char)} (h : raw ∈ raws)
    (number offset : Nat) : ∃ line ∈ numberLines number offset raws, line.text = dropReturn raw := by
  induction raws generalizing number offset with
  | nil => cases h
  | cons first rest ih =>
    rcases List.mem_cons.1 h with rfl | hrest
    · exact ⟨_, List.mem_cons_self, rfl⟩
    · obtain ⟨line, hline, htext⟩ := ih hrest (number + 1) (offset + utf8Length first + 1)
      exact ⟨line, List.mem_cons_of_mem _ hline, htext⟩

/-- Lines are refused if one of them always is. -/
theorem foldlM_error {lines : List Line} {line : Line} (hline : line ∈ lines)
    (h : ∀ p, ∃ e, Progress.step source p line = .error e) (p : Progress) :
    ∃ e, lines.foldlM (Progress.step source) p = .error e := by
  induction lines generalizing p with
  | nil => cases hline
  | cons first rest ih =>
    rw [List.foldlM_cons]
    cases hstep : p.step source first with
    | error e => exact ⟨e, rfl⟩
    | ok p' =>
      rcases List.mem_cons.1 hline with rfl | hrest
      · obtain ⟨e, he⟩ := h p
        rw [hstep] at he
        cases he
      · exact ih hrest p'

/-- The line of a directive is among the lines of its script. -/
theorem mem_lines {s : Script} {scene : Scene} (hscene : scene ∈ s.scenes) {d : Numbered}
    (hd : d ∈ scene.directives) (indent : List Char) :
    indent ++ d.directive.line ∈ s.lines indent := by
  have hline : indent ++ d.directive.line ∈ scene.lines indent := by
    simp only [Scene.lines, List.cons_append, List.mem_cons, List.mem_append, List.mem_map]
    exact .inr (.inl ⟨d, hd, rfl⟩)
  exact mem_intercalate_of_mem (List.mem_map_of_mem hscene) hline

/-- A written script that is not plain does not compile. -/
theorem compile_of_not_plain {s : Script} (hs : s.WellFormed) (hnot : ¬ s.Plain)
    {indent : List Char} (hindent : ∀ c ∈ indent, isBlank c) (hfeed : '\n' ∉ indent) {out : String}
    (hout : out.toList = unlines (s.lines indent)) : ∃ e, compile out source = .error e := by
  rw [plain_iff] at hnot
  push Not at hnot
  obtain ⟨scene, hscene, d, hd, hnot⟩ := hnot
  have hwell := (hs.scenes scene hscene).directives d hd
  have htext := line_isDirectiveLine hwell
  obtain ⟨flaw, hflaw⟩ := directive_of_not_plain hwell hnot
  obtain ⟨line, hline, heq⟩ := mem_numberLines (mem_lines hscene hd indent) 1 0
  rw [dropReturn_directive htext] at heq
  have hfold : ∃ e, (numberLines 1 0 (s.lines indent)).foldlM (Progress.step source) {} = .error e :=
    foldlM_error hline (fun p => step_flaw heq hindent htext hflaw) {}
  obtain ⟨e, he⟩ := hfold
  refine ⟨e, ?_⟩
  unfold compile parse
  rw [hout, linesOf_written hs hfeed]
  simp only [he, bind, Except.bind]

end VisualNovel.Script

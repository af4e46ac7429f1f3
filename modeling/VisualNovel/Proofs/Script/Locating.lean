import VisualNovel.Proofs.Script.Flaws
import VisualNovel.Proofs.Script.Layout

/-!
Where a mistake is reported. Line and column lead to a place of the text, the offset is the number
of bytes before that place, and the token stands there.
-/

namespace VisualNovel.Script

open Text

/-! ### Lines -/

theorem numberLines_append (number offset : Nat) (raws raws' : List (List Char)) :
    numberLines number offset (raws ++ raws') = numberLines number offset raws ++
      numberLines (number + raws.length) (offset + utf8Length (unlines raws)) raws' := by
  induction raws generalizing number offset with
  | nil => rfl
  | cons raw raws ih =>
    have hfeed : utf8Length ('\n' :: unlines raws) = 1 + utf8Length (unlines raws) := rfl
    rw [List.cons_append, numberLines, ih, numberLines, List.cons_append, unlines_cons,
      utf8Length_append, hfeed, List.length_cons]
    congr 3 <;> omega

/-- The lines before a numbered line are numbered as if they stood alone, and it has its number and
    its offset from them. -/
theorem numberLines_eq_append_cons {number offset : Nat} {raws : List (List Char)}
    {front rest : List Line} {line : Line}
    (h : numberLines number offset raws = front ++ line :: rest) :
    ∃ before raw after, raws = before ++ raw :: after ∧ front = numberLines number offset before ∧
      line = ⟨(number + before.length : Nat), dropReturn raw,
        (offset + utf8Length (unlines before) : Nat)⟩ := by
  have hlength : front.length < raws.length := by
    have hlengths := congrArg List.length h
    rw [← List.length_map (f := (·.text)), numberLines_text] at hlengths
    simp at hlengths
    omega
  obtain ⟨before, raw, after, rfl, hbefore⟩ : ∃ before raw after,
      raws = before ++ raw :: after ∧ before.length = front.length :=
    ⟨raws.take front.length, raws[front.length], raws.drop (front.length + 1), by simp, by
      simp; omega⟩
  rw [numberLines_append] at h
  obtain ⟨hfront, hrest⟩ := List.append_inj h (by
    rw [← hbefore, ← List.length_map (f := (·.text)), numberLines_text, List.length_map])
  exact ⟨before, raw, after, rfl, hfront.symm, (List.cons.inj hrest).1.symm⟩

theorem line_from_one (n bytes : Nat) (text : List Char) :
    (⟨(1 + n : Nat), text, (0 + bytes : Nat)⟩ : Line) = ⟨n + 1, text, bytes⟩ := by
  congr 1 <;> omega

/-- The lines of a text up to one of them are those of the pieces between its line feeds. -/
theorem linesOf_eq_append_cons {text : List Char} {front rest : List Line} {line : Line}
    (h : linesOf text = front ++ line :: rest) :
    ∃ before raw after, splitAtEach '\n' text = before ++ raw :: after ∧
      front = numberLines 1 0 before ∧
      line = ⟨before.length + 1, dropReturn raw, utf8Length (unlines before)⟩ := by
  unfold linesOf at h
  dsimp only at h
  obtain ⟨before, raw, after, hraws, hfront, rfl⟩ := numberLines_eq_append_cons h
  rw [line_from_one]
  split at hraws
  · next hlast =>
    obtain ⟨pieces, hpieces⟩ := List.getLast?_eq_some_iff.1 (beq_iff_eq.1 hlast)
    rw [hpieces, List.dropLast_concat] at hraws
    exact ⟨before, raw, after ++ [[]], by rw [hpieces, hraws]; simp, hfront, rfl⟩
  · exact ⟨before, raw, after, hraws, hfront, rfl⟩

/-- A piece that is not empty makes a line of its own behind those before it. -/
theorem exists_linesOf_eq {text : List Char} {before after : List (List Char)} {raw : List Char}
    (h : splitAtEach '\n' text = before ++ raw :: after) (hraw : raw ≠ []) :
    ∃ rest, linesOf text = numberLines 1 0 before ++
      ⟨before.length + 1, dropReturn raw, utf8Length (unlines before)⟩ :: rest := by
  obtain ⟨after', hafter⟩ : ∃ after', (if (splitAtEach '\n' text).getLast? == some [] then
      (splitAtEach '\n' text).dropLast else splitAtEach '\n' text) = before ++ raw :: after' := by
    rw [h]
    split
    · next hlast =>
      cases after with
      | nil => simp [hraw] at hlast
      | cons next more => exact ⟨(next :: more).dropLast, by simp⟩
    · exact ⟨after, rfl⟩
  unfold linesOf
  dsimp only
  rw [hafter, numberLines_append, numberLines, line_from_one]
  exact ⟨_, rfl⟩

/-- A line of a text has its number, and counts the bytes of the lines before it. -/
theorem line_of_mem_linesOf {text : List Char} {line : Line} (h : line ∈ linesOf text) :
    ∃ (n : Nat) (raw : List Char), (splitAtEach '\n' text)[n]? = some raw ∧ line =
      ⟨n + 1, dropReturn raw, utf8Length (unlines ((splitAtEach '\n' text).take n))⟩ := by
  obtain ⟨front, rest, hlines⟩ := List.append_of_mem h
  obtain ⟨before, raw, after, htext, -, rfl⟩ := linesOf_eq_append_cons hlines
  exact ⟨before.length, raw, by simp [htext], by rw [htext, List.take_left]⟩

/-! ### Flawed lines -/

variable {source : Option String} {p p' : Progress} {line : Line} {e : SyntaxError}

theorem opensScene_isPrefix {text : List Char} (h : opensScene text) : "SCENE".toList <+: text := by
  unfold opensScene at h
  split at h
  · next rest => exact ⟨rest, rfl⟩
  · cases h

/-- A line is refused for a flaw in it, or for opening a second scene of one name. -/
theorem Progress.step_eq_error {e : CompileError} (h : p.step source line = .error e) :
    (∃ flaw : Flaw, flaw.Within line.text ∧ e = .malformed (line.locate source flaw)) ∨
      ∃ scene, e = .unsound ⟨.duplicateScene scene, source, line.number⟩ := by
  have htext : Ends isBlank (trimStart line.text) := ends_trimStart line.text
  have hsuffix := trimStart_suffix line.text
  have hstripped : trimEnd (trimStart line.text) <+: trimStart line.text := trimEnd_prefix _
  unfold Progress.step at h
  dsimp only at h
  split at h
  · cases h
  split at h
  · next hopens =>
    split at h
    · cases h
      exact .inl ⟨_, ⟨hsuffix, .inl ((opensScene_isPrefix hopens).trans hstripped)⟩, rfl⟩
    split at h
    · cases h
      exact .inl ⟨_, ⟨hsuffix, .inl hstripped⟩, rfl⟩
    split at h
    · cases h
      exact .inr ⟨_, rfl⟩
    · cases h
  · split at h
    · cases h
      have hfirst := head_words_isPrefix (htext.of_prefix hstripped)
      exact .inl ⟨_, ⟨hsuffix, .inl (hfirst.trans hstripped)⟩, rfl⟩
    split at h
    · cases h
    split at h
    · next flaw hflaw =>
      cases h
      exact .inl ⟨flaw, (directive_finds htext).mono hsuffix flaw hflaw, rfl⟩
    · cases h

/-- A line with a mistake has a flaw, and the report is about that flaw. -/
theorem Progress.step_malformed (h : p.step source line = .error (.malformed e)) :
    ∃ flaw : Flaw, flaw.Within line.text ∧ e = line.locate source flaw := by
  obtain ⟨flaw, hflaw, heq⟩ | ⟨scene, heq⟩ := Progress.step_eq_error h
  · exact ⟨flaw, hflaw, CompileError.malformed.inj heq⟩
  · cases heq

/-- Compiling stops at the first line that is refused, with the error of that line. -/
theorem foldlM_eq_error_iff {lines : List Line} {e : CompileError} :
    lines.foldlM (Progress.step source) p = .error e ↔
      ∃ front line rest p', lines = front ++ line :: rest ∧
        front.foldlM (Progress.step source) p = .ok p' ∧ p'.step source line = .error e := by
  constructor
  · intro h
    induction lines generalizing p with
    | nil => cases h
    | cons line lines ih =>
      cases hstep : p.step source line with
      | error e' =>
        rw [List.foldlM_cons, hstep] at h
        cases h
        exact ⟨[], line, lines, p, rfl, rfl, hstep⟩
      | ok next =>
        rw [foldlM_cons_of_ok hstep] at h
        obtain ⟨front, line', rest, p', rfl, hfront, hfails⟩ := ih h
        exact ⟨line :: front, line', rest, p', rfl, by rw [foldlM_cons_of_ok hstep, hfront], hfails⟩
  · rintro ⟨front, line, rest, p', rfl, hfront, hfails⟩
    rw [List.foldlM_append, hfront]
    show (line :: rest).foldlM (Progress.step source) p' = .error e
    rw [List.foldlM_cons, hfails]
    rfl

/-- Validation finds jumps to unknown scenes, and that there is no scene. -/
theorem validate_eq_error {s : Script} {e : CompileError} (h : s.validate = .error e) :
    (∃ flaw : StructuralError, e = .unsound flaw ∧
      ∀ scene, flaw.problem ≠ .duplicateScene scene) ∨ ∃ flaw, e = .incomplete flaw := by
  unfold validate at h
  split at h
  · cases h
    exact .inl ⟨_, rfl, by simp⟩
  obtain ⟨scene, -, h⟩ := forM_eq_error h
  obtain ⟨d, -, h⟩ := forM_eq_error h
  unfold checkDirective at h
  split at h
  · split at h
    · split at h
      · cases h
        exact .inr ⟨_, rfl⟩
      · split at h
        · cases h
        · cases h
          exact .inl ⟨_, rfl, by simp⟩
    · cases h
  · cases h

theorem validate_ne_malformed (s : Script) : s.validate ≠ .error (.malformed e) := by
  intro h
  obtain ⟨flaw, heq, -⟩ | ⟨flaw, heq⟩ := validate_eq_error h
  · cases heq
  · cases heq

theorem Progress.Takes.last (h : p.Takes line p') : p'.last = some line := by
  cases h <;> rfl

/-- The last line of what was compiled is one of the lines, if there is any. -/
theorem last_of_foldlM {lines : List Line}
    (h : lines.foldlM (Progress.step source) p = .ok p') :
    p' = p ∨ ∃ line ∈ lines, p'.last = some line := by
  induction lines generalizing p with
  | nil =>
    cases h
    exact .inl rfl
  | cons line lines ih =>
    obtain ⟨next, htakes, hrest⟩ := foldlM_cons_eq_ok.1 h
    refine .inr ?_
    obtain rfl | ⟨line', hline', hlast⟩ := ih hrest
    · exact ⟨line, List.mem_cons_self, htakes.last⟩
    · exact ⟨line', List.mem_cons_of_mem _ hline', hlast⟩

/-- What is wrong at the end of a text is wrong behind its last line, unless there is no scene. -/
theorem finish_malformed {lines : List Line}
    (hfold : lines.foldlM (Progress.step source) {} = .ok p)
    (h : p.finish source = .error (.malformed e)) :
    e.column = 0 ∨ ∃ line ∈ lines, ∃ flaw : Flaw, flaw.Within line.text ∧
      e = line.locate source flaw := by
  unfold Progress.finish at h
  split at h
  · next scene line _ hlast =>
    cases h
    obtain rfl | ⟨line', hline', hlast'⟩ := last_of_foldlM hfold
    · cases hlast
    · cases hlast.symm.trans hlast'
      exact .inr ⟨line, hline', _, ⟨List.nil_suffix, .inl List.nil_prefix⟩, rfl⟩
  · next scene hcurrent hlast =>
    obtain rfl | ⟨line', hline', hlast'⟩ := last_of_foldlM hfold
    · cases hcurrent
    · cases hlast.symm.trans hlast'
  · split at h
    · cases h
      exact .inl rfl
    · cases h

/-- Each mistake of a text is a flaw in one of its lines, unless the text has no scene. -/
theorem compile_malformed {text : String} (h : compile text source = .error (.malformed e)) :
    e.column = 0 ∨ ∃ line ∈ linesOf (dropMark text.toList), ∃ flaw : Flaw,
      flaw.Within line.text ∧ e = line.locate source flaw := by
  obtain hfold | ⟨p, hfold, hfinish | ⟨s, -, hvalid⟩⟩ := compile_eq_error_iff.1 h
  · obtain ⟨front, line, rest, p, hlines, -, hstep⟩ := foldlM_eq_error_iff.1 hfold
    exact .inr ⟨line, by simp [hlines], Progress.step_malformed hstep⟩
  · exact finish_malformed hfold hfinish
  · exact absurd hvalid (validate_ne_malformed s)

/-- The mistake is at a character of this text, or at the end of a line: its line and its column say
    at which, its offset is the number of bytes before that, and its token stands there. Only an
    empty stage direction is blamed on its two parentheses, where the first of them stands. -/
def SyntaxError.StandsIn (e : SyntaxError) (text : List Char) : Prop :=
  ∃ (n k : Nat) (raw before : List Char), (splitAtEach '\n' text)[n]? = some raw ∧
    e.line = n + 1 ∧ e.column = k + 1 ∧ k ≤ (dropReturn raw).length ∧
    before = unlines ((splitAtEach '\n' text).take n) ++ (dropReturn raw).take k ∧
    before <+: text ∧ e.offset = (String.ofList before).utf8ByteSize ∧
    (e.token.toList <+: (dropReturn raw).drop k ∨
      e.mistake = .emptyDirection ∧ e.token = "()" ∧ ((dropReturn raw).drop k).head? = some '(')

theorem dropReturn_isPrefix (raw : List Char) : dropReturn raw <+: raw := by
  unfold dropReturn
  split
  · exact List.dropLast_prefix raw
  · exact List.prefix_refl raw

/-- A flaw of a line is located in the text of that line. -/
theorem locate_standsIn {text : List Char} {line : Line} (hline : line ∈ linesOf text)
    {flaw : Flaw} (hflaw : flaw.Within line.text) :
    (line.locate source flaw).StandsIn text := by
  obtain ⟨n, raw, hraw, rfl⟩ := line_of_mem_linesOf hline
  obtain ⟨front, hfront⟩ := hflaw.suffix
  dsimp only at hfront
  have htake : (dropReturn raw).take front.length = front := by rw [← hfront, List.take_left]
  have hdrop : (dropReturn raw).drop front.length = flaw.rest := by rw [← hfront, List.drop_left]
  have hlength : front.length + flaw.rest.length = (dropReturn raw).length := by
    rw [← hfront, List.length_append]
  have hbytes : utf8Length front + utf8Length flaw.rest = utf8Length (dropReturn raw) := by
    rw [← hfront, utf8Length_append]
  refine ⟨n, front.length, raw, _, hraw, rfl, ?_, by omega, rfl, ?_, ?_, ?_⟩
  · simp only [Line.locate]
    omega
  · rw [htake]
    have hbefore : front <+: raw :=
      (List.prefix_append front flaw.rest).trans (hfront ▸ dropReturn_isPrefix raw)
    exact ((List.prefix_append_right_inj _).2 hbefore).trans (unlines_take_isPrefix hraw)
  · rw [htake, utf8ByteSize_ofList, utf8Length_append]
    simp only [Line.locate]
    omega
  · rw [hdrop, Line.locate, String.toList_ofList]
    obtain htoken | ⟨hmistake, htoken, hopen⟩ := hflaw.pointed
    · exact .inl htoken
    · exact .inr ⟨hmistake, by rw [htoken], hopen⟩

/-- What is reported with a column stands there, in the text without its byte order mark. -/
theorem compile_malformed_standsIn {text : String} {source : Option String} {e : SyntaxError}
    (h : compile text source = .error (.malformed e)) (hcolumn : 1 ≤ e.column) :
    e.StandsIn (dropMark text.toList) := by
  obtain hzero | ⟨line, hline, flaw, hflaw, rfl⟩ := compile_malformed h
  · omega
  · exact locate_standsIn hline hflaw

/-- Text behind a directive is found behind characters of several bytes and a carriage return. -/
theorem compile_malformed_standsIn_trailing :
    let e : SyntaxError := ⟨.trailingText, none, 2, 10, 21, "\u00fc"⟩
    compile "\ufeffSCENE a\r\n  \u00e9: \"\u3042\" \u00fc\r\nCURTAIN\n" =
      .error (.malformed e) ∧ 1 ≤ e.column ∧
      e.StandsIn "SCENE a\r\n  \u00e9: \"\u3042\" \u00fc\r\nCURTAIN\n".toList := by
  intro e
  have hcompile : compile "\ufeffSCENE a\r\n  \u00e9: \"\u3042\" \u00fc\r\nCURTAIN\n" =
      .error (.malformed e) := eq_error_of_errorOf? (by decide +kernel)
  have hmark : dropMark "\ufeffSCENE a\r\n  \u00e9: \"\u3042\" \u00fc\r\nCURTAIN\n".toList =
      "SCENE a\r\n  \u00e9: \"\u3042\" \u00fc\r\nCURTAIN\n".toList := by decide
  have hstands := compile_malformed_standsIn hcompile (by decide)
  rw [hmark] at hstands
  exact ⟨hcompile, by decide, hstands⟩

end VisualNovel.Script

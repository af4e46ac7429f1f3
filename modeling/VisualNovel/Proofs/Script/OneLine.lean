import VisualNovel.Proofs.Script.Plain
import VisualNovel.Proofs.Script.WellFormed

/-!
What is written for a directive stands on one line, and the line is taken for a directive: it is
neither blank nor a comment, opens no scene and closes none.
-/

namespace VisualNovel

/-! ### Line feeds -/

namespace Script

open Number Text

theorem feed_not_mem_exponentText (e : Int) : '\n' ∉ exponentText e := by
  have hdigits : '\n' ∉ digitsOf e.natAbs :=
    not_mem_digits isDigit_of_mem_digitsOf (by decide)
  unfold exponentText
  dsimp only
  split <;> split <;> simp [hdigits]

theorem feed_not_mem_write {d : Digits} (hd : ∀ c ∈ d.digits, isDigit c) :
    '\n' ∉ plainLayout.write d := by
  have hdigits : '\n' ∉ d.digits := not_mem_digits hd (by decide)
  have hexponent := feed_not_mem_exponentText (d.point - 1)
  unfold Layout.write
  dsimp only
  split
  · split
    · simp [hdigits]
    split
    · split <;> simp [hdigits]
    · have htake : '\n' ∉ d.digits.take d.point.toNat := fun h => hdigits (List.mem_of_mem_take h)
      have hdrop : '\n' ∉ d.digits.drop d.point.toNat := fun h => hdigits (List.mem_of_mem_drop h)
      simp [htake, hdrop]
  · split
    · simp [hexponent]
    · next c heq =>
      rw [heq] at hdigits
      simpa [hexponent] using hdigits
    · next c rest _ heq =>
      rw [heq] at hdigits
      simpa [hexponent] using hdigits

theorem feed_not_mem_withSign {negative : Bool} {body : List Char} (h : '\n' ∉ body) :
    '\n' ∉ withSign negative body := by
  cases negative <;> simp [withSign, h]

theorem feed_not_mem_shortestOrWhole (x : Float) : '\n' ∉ (shortestOrWhole x).toList := by
  cases hparts : parts x with
  | nan =>
    simp only [shortestOrWhole, shortest, hparts]
    decide
  | infinite negative =>
    simp only [shortestOrWhole, shortest, hparts]
    cases negative <;> decide
  | finite negative units =>
    by_cases hwhole : units % unitsPerOne = 0
    · rw [shortestOrWhole_of_whole hparts hwhole]
      exact feed_not_mem_withSign (not_mem_digits isDigit_of_mem_digitsOf (by decide))
    · obtain ⟨bits, hpos, hfinite, -, hshortest, htext⟩ :=
        shortestOrWhole_of_fraction hparts hwhole
      rw [hshortest, htext]
      exact feed_not_mem_withSign (feed_not_mem_write (shortestDigits_spells hpos hfinite).digits)

theorem feed_not_mem_toString (n : Int) : '\n' ∉ (toString n).toList := by
  cases n with
  | ofNat n =>
    rw [show toString (Int.ofNat n) = Nat.repr n from rfl, Nat.toList_repr]
    exact not_mem_digits isDigit_of_mem_digitsOf (by decide)
  | negSucc n =>
    rw [show toString (Int.negSucc n) = "-" ++ Nat.repr (n + 1) from rfl, String.toList_append,
      Nat.toList_repr]
    have hdigits : '\n' ∉ digitsOf (n + 1) :=
      not_mem_digits isDigit_of_mem_digitsOf (by decide)
    simpa [digitsOf] using hdigits

theorem feed_not_mem_name {w : String} (hw : IsName w) : '\n' ∉ w.toList :=
  not_mem_name hw (by decide)

theorem feed_not_mem_writeAtom {a : Atom} (ha : a.Named) : '\n' ∉ writeAtom a := by
  obtain c | name := a
  · unfold writeAtom escape
    dsimp only
    split
    · decide
    · next hc =>
      have hne : '\n' ≠ c := fun heq => hc (beq_iff_eq.2 heq.symm)
      split <;> simp [hne]
  · have hname : '\n' ∉ name.toList := feed_not_mem_name ha
    simp [writeAtom, hname]

theorem feed_not_mem_expression {e : Expression} (he : ∀ a ∈ e.atoms, a.Named) :
    '\n' ∉ e.written := by
  have hatoms : '\n' ∉ e.atoms.flatMap writeAtom := by
    intro hmem
    obtain ⟨a, ha, hfeed⟩ := List.mem_flatMap.1 hmem
    exact feed_not_mem_writeAtom (he a ha) hfeed
  simp [Expression.written, hatoms]

theorem feed_not_mem_quotedText (s : String) : '\n' ∉ (quotedText s).toList := by
  unfold quotedText Expression.source
  rw [String.toList_ofList]
  refine feed_not_mem_expression fun a ha => ?_
  obtain ⟨c, -, rfl⟩ := List.mem_map.1 (by simpa [Segment.atoms] using ha)
  trivial

theorem feed_not_mem_chunk {c : Chunk} (hc : c.Writable) : '\n' ∉ c.written := by
  cases c with
  | word w => exact feed_not_mem_name hc
  | text s => exact feed_not_mem_quotedText s
  | number x => exact feed_not_mem_shortestOrWhole x
  | layer n => exact feed_not_mem_toString n

theorem feed_not_mem_row {chunks : List Chunk} (h : ∀ c ∈ chunks, c.Writable) :
    '\n' ∉ Chunk.row chunks := by
  intro hmem
  obtain ⟨c, hc, hfeed⟩ := List.mem_flatMap.1 hmem
  rcases List.mem_cons.1 hfeed with heq | hfeed
  · exact absurd heq (by decide)
  · exact feed_not_mem_chunk (h c hc) hfeed

/-! ### Directive lines -/

/-- A line that can only stand for a directive. -/
structure IsDirectiveLine (text : List Char) : Prop where
  begins : ∃ c rest, text = c :: rest ∧ isBlank c = false ∧ c ≠ '/'
  ends : ∃ front c, text = front ++ [c] ∧ c ∈ [')', '"', '}']
  no_feed : '\n' ∉ text
  opens_no_scene : opensScene text = false

namespace IsDirectiveLine

variable {text : List Char}

theorem trimStart (h : IsDirectiveLine text) {blanks : List Char}
    (hblanks : ∀ c ∈ blanks, isBlank c) : Text.trimStart (blanks ++ text) = text := by
  obtain ⟨c, rest, rfl, hc, -⟩ := h.begins
  exact trimStart_append hblanks (ends_cons.2 hc)

theorem trimEnd (h : IsDirectiveLine text) : Text.trimEnd text = text := by
  obtain ⟨front, c, rfl, hc⟩ := h.ends
  refine trimEnd_append_singleton ?_
  simp only [List.mem_cons, List.not_mem_nil, or_false] at hc
  rcases hc with rfl | rfl | rfl <;> rfl

theorem ne_curtain (h : IsDirectiveLine text) : text ≠ "CURTAIN".toList := by
  rintro rfl
  obtain ⟨front, c, heq, hc⟩ := h.ends
  have hlast := congrArg List.getLast? heq
  rw [List.getLast?_append] at hlast
  simp at hlast
  rw [← hlast] at hc
  exact absurd hc (by decide)

end IsDirectiveLine

theorem opensScene_eq_false {c : Char} (hc : c ≠ 'S') (rest : List Char) :
    opensScene (c :: rest) = false := by
  unfold opensScene
  split
  · next heq =>
    cases heq
    exact absurd rfl hc
  · rfl

theorem stage_isDirectiveLine {p : Phrase} (hp : p.Valid) :
    IsDirectiveLine ('(' :: ((Chunk.row p.chunks).tail ++ [')'])) where
  begins := ⟨'(', _, rfl, by decide, by decide⟩
  ends := ⟨'(' :: (Chunk.row p.chunks).tail, ')', rfl, by decide⟩
  no_feed := by
    have hrow := feed_not_mem_row (p.writable hp)
    have htail : '\n' ∉ (Chunk.row p.chunks).tail := fun h => hrow (List.mem_of_mem_tail h)
    simp [htail]
  opens_no_scene := opensScene_eq_false (by decide) _

theorem log_isDirectiveLine {message : Expression} (hmessage : message.WellFormed) :
    IsDirectiveLine (writtenLog message).toList := by
  have hfeed := feed_not_mem_expression hmessage.atoms_named
  have htext : (writtenLog message).toList =
      '{' :: ("log ".toList ++ message.written ++ ['}']) := by
    simp [writtenLog, Expression.source]
  rw [htext]
  exact {
    begins := ⟨'{', _, rfl, by decide, by decide⟩
    ends := ⟨'{' :: ("log ".toList ++ message.written), '}', rfl, by decide⟩
    no_feed := by simp [hfeed]
    opens_no_scene := opensScene_eq_false (by decide) _ }

/-- What opens a scene begins with the word for it. -/
theorem takeWhile_of_opensScene {text : List Char} (h : opensScene text) :
    text.takeWhile isNameChar = "SCENE".toList := by
  unfold opensScene at h
  split at h
  · next rest =>
    show ("SCENE".toList ++ rest).takeWhile isNameChar = _
    refine takeWhile_append_of_ends (List.all_eq_true.1 (by decide)) fun c hc => ?_
    rw [Option.mem_def] at hc
    simpa [hc] using h
  · cases h

/-- The emotion of a line of dialogue as it is written, with a space before it. -/
def emotionText (emotion : Option String) : List Char :=
  (emotion.map fun e => ' ' :: '(' :: (e.toList ++ [')'])).getD []

/-- A line of dialogue as it is written. -/
theorem toList_dialogue {d : Dialogue} (hd : d.WellFormed) :
    d.written.toList =
      d.speaker.label.toList ++ ':' :: (emotionText d.emotion ++ ' ' :: d.text.written) := by
  obtain ⟨speaker, text, emotion⟩ := d
  cases emotion with
  | none => simp [Dialogue.written, emotionText, Expression.source]
  | some e =>
    have he : e ≠ "" := by
      rintro rfl
      exact ne_nil_of_isName (hd.emotion_named _ rfl) rfl
    simp [Dialogue.written, emotionText, Expression.source, he]

/-- A speaker is written as a name, which does not open a scene. -/
theorem label_isName {s : Speaker} (hs : s.WellFormed) : IsName s.label ∧ s.label ≠ "SCENE" := by
  obtain ⟨kind, name⟩ := s
  cases kind with
  | character =>
    obtain ⟨name, rfl, hname, hother⟩ := hs
    exact ⟨hname, fun heq => hother (by simp [show name = "SCENE" from heq])⟩
  | mainCharacter =>
    obtain rfl : name = none := hs
    exact ⟨show isName "MC".toList by decide, by decide⟩
  | narrator =>
    obtain rfl : name = none := hs
    exact ⟨show isName "info".toList by decide, by decide⟩

theorem isNamed_of_wellFormed {s : Speaker} (hs : s.WellFormed) : s.isNamed := by
  obtain ⟨kind, name⟩ := s
  cases kind with
  | character =>
    obtain ⟨name, rfl, -⟩ := hs
    rfl
  | mainCharacter | narrator => rfl

/-- A line that begins with a name and a colon and ends with a quote. -/
theorem spoken_isDirectiveLine {name front : List Char} (hname : isName name)
    (hscene : name ≠ "SCENE".toList) (hfeed : '\n' ∉ front) :
    IsDirectiveLine (name ++ ':' :: (front ++ ['"'])) where
  begins := by
    obtain ⟨⟨c, more, rfl, hstart⟩, -⟩ := isName_iff.1 hname
    refine ⟨c, _, rfl, isBlank_eq_false_of_isNameChar (isNameChar_of_isNameStart hstart), ?_⟩
    rintro rfl
    exact absurd hstart (by decide)
  ends := ⟨name ++ ':' :: front, '"', by simp, by decide⟩
  no_feed := by
    have hletters : '\n' ∉ name := not_mem_name hname (by decide)
    simp [hletters, hfeed]
  opens_no_scene := by
    cases hopens : opensScene (name ++ ':' :: (front ++ ['"'])) with
    | false => rfl
    | true =>
      have hword := takeWhile_of_opensScene hopens
      have hcolon : Ends isNameChar (':' :: (front ++ ['"'])) := ends_cons.2 (by decide)
      rw [takeWhile_append_of_ends (isNameChar_of_mem_name hname) hcolon] at hword
      exact absurd hword hscene

theorem dialogue_isDirectiveLine {d : Dialogue} (hd : d.WellFormed) :
    IsDirectiveLine d.written.toList := by
  obtain ⟨hlabel, hscene⟩ := label_isName hd.speaker
  have hemotion : '\n' ∉ emotionText d.emotion := by
    cases hgiven : d.emotion with
    | none => simp [emotionText]
    | some e =>
      have he : '\n' ∉ e.toList := feed_not_mem_name (hd.emotion_named e hgiven)
      simp [emotionText, he]
  have hspoken : '\n' ∉ d.text.atoms.flatMap writeAtom := by
    have hfeed := feed_not_mem_expression hd.text.atoms_named
    simp only [Expression.written, List.cons_append, List.mem_cons, List.mem_append, not_or] at hfeed
    exact hfeed.2.1
  have htext : d.written.toList = d.speaker.label.toList ++
      ':' :: (emotionText d.emotion ++ ' ' :: '"' :: d.text.atoms.flatMap writeAtom ++ ['"']) := by
    rw [toList_dialogue hd]
    simp [Expression.written]
  rw [htext]
  refine spoken_isDirectiveLine hlabel (fun heq => hscene (String.toList_injective heq)) ?_
  simpa [hemotion] using hspoken

/-- What is written for a directive is the line of a directive. -/
theorem written_isDirectiveLine {d : Directive} (hd : d.WellFormed) :
    ∃ text, d.written = .ok text ∧ IsDirectiveLine text.toList := by
  cases d with
  | dialogue d =>
    exact ⟨d.written, if_pos (isNamed_of_wellFormed hd.speaker), dialogue_isDirectiveLine hd⟩
  | log message => exact ⟨writtenLog message, rfl, log_isDirectiveLine hd⟩
  | stage d =>
    obtain ⟨p, hp, rfl⟩ := hd
    obtain ⟨text, hwritten, htext⟩ := p.written
    exact ⟨text, hwritten, htext ▸ stage_isDirectiveLine hp⟩

end Script

end VisualNovel

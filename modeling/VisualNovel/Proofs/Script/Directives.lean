import VisualNovel.Proofs.Script.OneLine

/-!
A directive that is written is read back from its line. It is the same directive, for a sign in
front of a zero is lost but not compared.
-/

namespace VisualNovel

/-! ### Equality -/

theorem Directive.beq_dialogue (d : Dialogue) : Directive.dialogue d == .dialogue d := by
  show instBEqDirective.beq _ _
  simp [instBEqDirective.beq]

theorem Directive.beq_log (message : Expression) : Directive.log message == .log message := by
  show instBEqDirective.beq _ _
  simp [instBEqDirective.beq]

theorem Directive.beq_stage {d d' : StageDirection} (h : d == d') :
    Directive.stage d == .stage d' := by
  show instBEqDirective.beq _ _
  simp [instBEqDirective.beq, h]

namespace Script

open Text

/-! ### Stage directions -/

theorem row_eq_cons {chunks : List Chunk} (h : chunks ≠ []) :
    Chunk.row chunks = ' ' :: (Chunk.row chunks).tail := by
  obtain ⟨c, rest, rfl⟩ := List.exists_cons_of_ne_nil h
  rfl

theorem chunks_ne_nil (p : Phrase) : p.chunks ≠ [] := by
  cases p <;> simp [Phrase.chunks]

theorem tokens_phrase (p : Phrase) (after : List Char) :
    tokens ((Chunk.row p.chunks).tail ++ ')' :: after) =
      tokens (Chunk.row p.chunks ++ ')' :: after) := by
  have hrow := row_eq_cons (chunks_ne_nil p)
  generalize Chunk.row p.chunks = row at *
  rw [hrow]
  exact tokens_congr (trimStart_blank (by decide)).symm

theorem expectEnd_nil : expectEnd [] = .ok () := rfl

/-- A plain phrase is read back from its parentheses. -/
theorem stageDirection_written {p : Phrase} (hp : p.Valid)
    (hplain : ∀ x ∈ p.direction.params.numbers, Number.IsPlain x) :
    stageDirection ('(' :: ((Chunk.row p.chunks).tail ++ [')'])) =
      .ok (.stage p.reread.direction) := by
  obtain ⟨ts, htokens, hsays⟩ := tokens_row (p.readable hp hplain) []
  have hne : ts.isEmpty = false := by
    obtain ⟨c, rest, hchunks⟩ := List.exists_cons_of_ne_nil (chunks_ne_nil p)
    rw [hchunks] at hsays
    obtain ⟨t, more, rfl, -⟩ := hsays
    rfl
  unfold stageDirection
  rw [List.tail_cons, tokens_phrase, htokens]
  simp only [bind, Except.bind, expectEnd_nil, hne, phrase_chunks hp hsays]
  rfl

/-! ### Log entries -/

theorem toList_writtenLog (message : Expression) :
    (writtenLog message).toList = '{' :: 'l' :: 'o' :: 'g' :: ' ' :: (message.written ++ ['}']) := by
  simp [writtenLog, Expression.source]

theorem trimStart_written (e : Expression) (rest : List Char) :
    trimStart (e.written ++ rest) = e.written ++ rest :=
  trimStart_of_ends (by simp [Ends, Expression.written, isBlank])

theorem logEntry_written {message : Expression} (h : message.WellFormed) :
    logEntry (writtenLog message).toList = .ok (.log message) := by
  have hafter : afterLogWord? (writtenLog message).toList = some (message.written ++ ['}']) := by
    rw [toList_writtenLog]
    have hhead : isNameChar ' ' = false := by decide
    have htrim : trimStart ('l' :: 'o' :: 'g' :: ' ' :: (message.written ++ ['}'])) =
        'l' :: 'o' :: 'g' :: ' ' :: (message.written ++ ['}']) :=
      trimStart_of_ends (ends_cons.2 (by decide))
    simp only [afterLogWord?, htrim, List.head?_cons, Option.map_some, Option.getD_some, hhead]
    rw [trimStart_blank (by decide), trimStart_written]
    rfl
  unfold logEntry
  rw [hafter]
  dsimp only
  rw [readQuoted_written h.atoms_named, Expression.normalize_eq_self h.normal]
  rfl

/-! ### Dialogue -/

/-- The word of a speaker tells who speaks. -/
theorem speaker_of_label {s : Speaker} (hs : s.WellFormed) :
    (match (Vocabulary.ofWord? s.label : Option SpeakerKind) with
      | some .mainCharacter => (⟨.mainCharacter, none⟩ : Speaker)
      | some .narrator => ⟨.narrator, none⟩
      | _ => ⟨.character, some s.label⟩) = s := by
  obtain ⟨kind, name⟩ := s
  cases kind with
  | character =>
    obtain ⟨name, rfl, -, hother⟩ := hs
    simp only [List.mem_cons, List.not_mem_nil, or_false, not_or] at hother
    show (match (Vocabulary.ofWord? name : Option SpeakerKind) with
      | some .mainCharacter => (⟨.mainCharacter, none⟩ : Speaker)
      | some .narrator => ⟨.narrator, none⟩
      | _ => ⟨.character, some name⟩) = _
    split
    · next heq =>
      have hword := List.find?_some heq
      exact absurd (beq_iff_eq.1 hword).symm hother.1
    · next heq =>
      have hword := List.find?_some heq
      exact absurd (beq_iff_eq.1 hword).symm hother.2.1
    · rfl
  | mainCharacter | narrator =>
    obtain rfl : name = none := hs
    rfl

/-- A line of dialogue is read back. -/
theorem dialogue_written {d : Dialogue} (hd : d.WellFormed) :
    dialogue d.written.toList = .ok (.dialogue d) := by
  have hlabel : isName d.speaker.label.toList := (label_isName hd.speaker).1
  have hchars := isNameChar_of_mem_name hlabel
  have hcolon (rest : List Char) : Ends isNameChar (':' :: rest) := ends_cons.2 (by decide)
  have htrimColon (rest : List Char) : trimStart (':' :: rest) = ':' :: rest :=
    trimStart_of_ends (ends_cons.2 (by decide))
  have hspoken : readQuoted d.text.written = .ok (d.text, []) := by
    have hread := readQuoted_written hd.text.atoms_named []
    rwa [List.append_nil, Expression.normalize_eq_self hd.text.normal] at hread
  have hquote : d.text.written = '"' :: (d.text.atoms.flatMap writeAtom ++ ['"']) := rfl
  have htrimQuote : trimStart (' ' :: d.text.written) = d.text.written := by
    have hwritten := trimStart_written d.text []
    rwa [List.append_nil, ← trimStart_blank (c := ' ') (by decide)] at hwritten
  have hspeaker := speaker_of_label hd.speaker
  rw [toList_dialogue hd]
  unfold dialogue
  rw [takeWhile_append_of_ends hchars (hcolon _), dropWhile_append_of_ends hchars (hcolon _)]
  simp only [hlabel, Bool.not_true, Bool.false_eq_true, if_false, htrimColon]
  cases hemotion : d.emotion with
  | none =>
    rw [show emotionText none = [] from rfl, List.nil_append, htrimQuote, hquote]
    split
    · next heq => cases heq
    · rw [← hquote]
      simp only [bind, Except.bind, hspoken, expectEnd_nil, String.ofList_toList]
      refine congrArg Except.ok (congrArg Directive.dialogue ?_)
      exact (congrArg (fun s => (⟨s, d.text, none⟩ : Dialogue)) hspeaker).trans (by rw [← hemotion])
  | some e =>
    have he : isName e.toList := hd.emotion_named e hemotion
    have hclose : ')' ∉ e.toList := not_mem_name he (by decide)
    have hopen : trimStart (emotionText (some e) ++ ' ' :: d.text.written) =
        '(' :: (e.toList ++ ')' :: ' ' :: d.text.written) := by
      show trimStart (' ' :: '(' :: (e.toList ++ [')'] ++ ' ' :: d.text.written)) = _
      rw [trimStart_blank (by decide), trimStart_of_ends (ends_cons.2 (by decide))]
      simp
    simp only [hopen, breakAt?_append hclose, trim_name he, he, if_true, htrimQuote, bind,
      Except.bind, hspoken, expectEnd_nil, String.ofList_toList]
    refine congrArg Except.ok (congrArg Directive.dialogue ?_)
    exact (congrArg (fun s => (⟨s, d.text, some e⟩ : Dialogue)) hspeaker).trans (by rw [← hemotion])

/-- What begins with a name is a line of dialogue. -/
theorem directive_name {name : List Char} (hname : isName name) (rest : List Char) :
    directive (name ++ rest) = dialogue (name ++ rest) := by
  obtain ⟨⟨c, more, rfl, hstart⟩, -⟩ := isName_iff.1 hname
  unfold directive
  split
  · next heq =>
    cases heq
    exact absurd hstart (by decide)
  · next heq =>
    cases heq
    exact absurd hstart (by decide)
  · rfl

/-- A plain directive is read back from its line. -/
theorem directive_written {d : Directive} (hd : d.WellFormed) (hplain : d.Plain) {text : String}
    (hwritten : d.written = .ok text) : ∃ d', directive text.toList = .ok d' ∧ d == d' := by
  cases d with
  | dialogue d =>
    have hline := (if_pos (isNamed_of_wellFormed hd.speaker)).symm.trans hwritten
    cases hline
    refine ⟨_, ?_, Directive.beq_dialogue d⟩
    rw [← dialogue_written hd, toList_dialogue hd]
    exact directive_name (label_isName hd.speaker).1 _
  | log message =>
    cases hwritten
    refine ⟨_, ?_, Directive.beq_log message⟩
    rw [← logEntry_written hd, toList_writtenLog]
    rfl
  | stage d =>
    obtain ⟨p, hp, rfl⟩ := hd
    obtain ⟨text', hwritten', htext⟩ := p.written
    have heq : text' = text := Except.ok.inj (hwritten'.symm.trans hwritten)
    subst heq
    refine ⟨_, ?_, Directive.beq_stage (Phrase.beq_reread hplain)⟩
    rw [htext]
    exact stageDirection_written hp hplain

end Script

end VisualNovel

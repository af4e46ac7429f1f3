import VisualNovel.Proofs.Script.Outcome
import VisualNovel.Proofs.Text.Trimming

/-!
What a reader takes off a text is a piece of it, and the reader takes the same piece, and makes the
same of it, whatever stands behind. For a directive only blanks may.
-/

namespace VisualNovel.Script

open Text

/-! ### Quoted expressions -/

/-- A quoted expression ends with its closing quote. -/
theorem readQuoted_piece {text tail : List Char} {e : Expression}
    (h : readQuoted text = .ok (e, tail)) :
    ∃ front, text = '"' :: (front ++ '"' :: tail) ∧
      ∀ more, readQuoted ('"' :: (front ++ '"' :: more)) = .ok (e, more) := by
  obtain ⟨front, atoms, rfl, hfront, rfl⟩ := readQuoted_eq_ok_iff.1 h
  exact ⟨front, rfl, fun more => readQuoted_eq_ok_iff.2 ⟨front, atoms, rfl, hfront, rfl⟩⟩

/-! ### Numbers -/

theorem sign_suffix (text : List Char) : (sign text).2 <:+ text := by
  unfold sign
  split
  · exact List.suffix_cons _ _
  · exact List.suffix_refl _

theorem places_suffix (text : List Char) : (places text).2 <:+ text := by
  unfold places
  split
  · split
    · exact List.suffix_refl _
    · exact (List.dropWhile_suffix isDigit).trans (List.suffix_cons _ _)
  · exact List.suffix_refl _

theorem dropPercent_suffix (text : List Char) : dropPercent text <:+ text := by
  unfold dropPercent
  split
  · exact List.suffix_cons _ _
  · exact List.suffix_refl _

/-- A number is taken off the front of a text. -/
theorem numberAt?_suffix {text after : List Char} {x : Float}
    (h : numberAt? text = some (x, after)) : after <:+ text := by
  simp only [numberAt?] at h
  split at h
  · cases h
  · cases h
    exact (dropPercent_suffix _).trans ((places_suffix _).trans
      ((List.dropWhile_suffix isDigit).trans (sign_suffix text)))

section Number

variable {front : List Char} (hclose : ')' ∈ front) (rest : List Char)
include hclose

theorem sign_append : sign (front ++ rest) = ((sign front).1, (sign front).2 ++ rest) := by
  obtain ⟨c, more, rfl⟩ := List.exists_cons_of_ne_nil (List.ne_nil_of_mem hclose)
  unfold sign
  grind

theorem close_mem_sign : ')' ∈ (sign front).2 := by
  unfold sign
  grind

theorem places_append :
    places (front ++ rest) = ((places front).1, (places front).2 ++ rest) := by
  obtain ⟨c, more, rfl⟩ := List.exists_cons_of_ne_nil (List.ne_nil_of_mem hclose)
  by_cases hpoint : c = '.'
  · have hmore : ')' ∈ more := by simpa [hpoint] using hclose
    have htake := takeWhile_append_of_mem (p := isDigit) hmore (by decide) rest
    have hdrop := dropWhile_append_of_mem (p := isDigit) hmore (by decide) rest
    rw [hpoint, List.cons_append, places, places, htake, hdrop]
    split <;> rfl
  · have hnone (text : List Char) : places (c :: text) = ([], c :: text) := by
      unfold places
      grind
    rw [List.cons_append, hnone, hnone, List.cons_append]

theorem close_mem_places : ')' ∈ (places front).2 := by
  unfold places
  split
  · next more =>
    have hmore : ')' ∈ more := by simpa using hclose
    split
    · exact hclose
    · exact mem_dropWhile_of_mem hmore (by decide)
  · exact hclose

theorem dropPercent_append : dropPercent (front ++ rest) = dropPercent front ++ rest := by
  obtain ⟨c, more, rfl⟩ := List.exists_cons_of_ne_nil (List.ne_nil_of_mem hclose)
  unfold dropPercent
  grind

/-- A number in front of a closing parenthesis does not depend on what is behind that. -/
theorem numberAt?_append :
    numberAt? (front ++ rest) = (numberAt? front).map fun (x, after) => (x, after ++ rest) := by
  have hsign := close_mem_sign hclose
  have hdigits : ')' ∈ (sign front).2.dropWhile isDigit := mem_dropWhile_of_mem hsign (by decide)
  have hplaces := close_mem_places hdigits
  unfold numberAt?
  rw [sign_append hclose]
  dsimp only
  rw [takeWhile_append_of_mem hsign (by decide), dropWhile_append_of_mem hsign (by decide),
    places_append hdigits]
  dsimp only
  rw [dropPercent_append hplaces]
  split <;> rfl

end Number

/-- What is read as a number in front of a closing parenthesis is that number wherever it stands in
    front of one. -/
theorem numberAt?_piece {c : Char} {cs front tail : List Char} {x : Float}
    (h : numberAt? (c :: cs) = some (x, front ++ ')' :: tail)) :
    ∃ raw, cs = raw ++ (front ++ ')' :: tail) ∧ ∀ more,
      numberAt? (c :: (raw ++ (front ++ ')' :: more))) = some (x, front ++ ')' :: more) := by
  obtain ⟨raw, hraw⟩ := numberAt?_suffix h
  cases raw with
  | nil =>
    have hshorter := length_of_numberAt? h
    rw [← hraw] at hshorter
    simp at hshorter
  | cons d raw =>
    rw [List.cons_append, List.cons.injEq] at hraw
    obtain ⟨rfl, rfl⟩ := hraw
    have hsplit (more : List Char) : d :: (raw ++ (front ++ ')' :: more)) =
        (d :: (raw ++ front ++ [')'])) ++ more := by simp
    have hclose : ')' ∈ d :: (raw ++ front ++ [')']) := by simp
    rw [hsplit, numberAt?_append hclose] at h
    obtain ⟨⟨y, after⟩, hnumber, heq⟩ := Option.map_eq_some_iff.1 h
    rw [Prod.mk.injEq] at heq
    obtain ⟨rfl, hafter⟩ := heq
    refine ⟨raw, rfl, fun more => ?_⟩
    have hkept : after = front ++ [')'] :=
      List.append_cancel_right (hafter.trans (List.append_cons front ')' tail))
    rw [hsplit, numberAt?_append hclose, hnumber, hkept, Option.map_some]
    simp

/-! ### Tokens -/

/-- A token is read in front of others as the first of them. -/
theorem map_consToken_value {t : Token} {ts ts' : List Token} {text rest : List Char}
    (htokens : tokens text = .ok (ts', rest)) (hvalues : ts'.map (·.value) = ts.map (·.value)) :
    ∃ us, (tokens text).map (consToken t) = .ok (us, rest) ∧
      us.map (·.value) = t.value :: ts.map (·.value) :=
  ⟨t :: ts', by rw [htokens]; rfl, by rw [List.map_cons, hvalues]⟩

/-- The tokens of a direction end with its closing parenthesis. -/
theorem tokens_piece {text tail : List Char} {ts : List Token}
    (h : tokens text = .ok (ts, tail)) :
    ∃ front, text = front ++ ')' :: tail ∧
      ∀ more, ∃ ts', tokens (front ++ ')' :: more) = .ok (ts', more) ∧
        ts'.map (·.value) = ts.map (·.value) := by
  have hspaced {blanks cs : List Char} (hblanks : ∀ c ∈ blanks, isBlank c) :
      tokens (blanks ++ cs) = tokens (' ' :: cs) :=
    tokens_congr (by rw [trimStart_append_blanks hblanks, trimStart_blank (by decide)])
  fun_induction tokens text generalizing ts with
  | case1 => cases h
  | case2 text c rest htrim hclose =>
    cases h
    obtain rfl := beq_iff_eq.1 hclose
    obtain ⟨-, blanks, rfl, hblanks⟩ := exists_blanks_of_trimStart htrim
    refine ⟨blanks, rfl, fun more => ⟨[], ?_, rfl⟩⟩
    have hnone : tokens (')' :: more) = .ok ([], more) := tokens_close more
    rw [← hnone]
    exact tokens_congr (trimStart_append_blanks hblanks _)
  | case3 => cases h
  | case4 text c rest htrim hclose hquote e after hread raw =>
    rename_i ih
    obtain ⟨ts, hts, rfl⟩ := eq_cons_of_map_consToken h
    obtain ⟨front, rfl, hfront⟩ := ih hts
    obtain ⟨quoted, hquoted, hagain⟩ := readQuoted_piece hread
    obtain ⟨-, blanks, rfl, hblanks⟩ := exists_blanks_of_trimStart htrim
    rw [hquoted]
    refine ⟨blanks ++ '"' :: (quoted ++ '"' :: front), by simp, fun more => ?_⟩
    obtain ⟨ts', hts', hvalues⟩ := hfront more
    obtain ⟨t, ht, htokens⟩ := tokens_quoted (hagain (front ++ ')' :: more))
    obtain ⟨us, hus, hvalues⟩ := map_consToken_value (t := t) hts' hvalues
    refine ⟨us, ?_, by rw [hvalues, ht]; rfl⟩
    rw [← hus, ← htokens, ← hspaced hblanks]
    simp
  | case5 text c rest htrim hclose hquote x after hnumber raw =>
    rename_i ih
    obtain ⟨ts, hts, rfl⟩ := eq_cons_of_map_consToken h
    obtain ⟨front, rfl, hfront⟩ := ih hts
    obtain ⟨digits, rfl, hagain⟩ := numberAt?_piece hnumber
    obtain ⟨-, blanks, rfl, hblanks⟩ := exists_blanks_of_trimStart htrim
    refine ⟨blanks ++ c :: (digits ++ front), by simp, fun more => ?_⟩
    obtain ⟨ts', hts', hvalues⟩ := hfront more
    obtain ⟨t, ht, htokens⟩ := tokens_number (hagain more)
    obtain ⟨us, hus, hvalues⟩ := map_consToken_value (t := t) hts' hvalues
    refine ⟨us, ?_, by rw [hvalues, ht]; rfl⟩
    rw [← hus, ← htokens, ← hspaced hblanks]
    simp
  | case6 text c rest htrim hclose hquote hnumber hstart word =>
    rename_i ih
    obtain ⟨ts, hts, rfl⟩ := eq_cons_of_map_consToken h
    obtain ⟨front, hafter, hfront⟩ := ih hts
    obtain ⟨-, blanks, rfl, hblanks⟩ := exists_blanks_of_trimStart htrim
    have hrest : rest = rest.takeWhile isNameChar ++ (front ++ ')' :: tail) := by
      rw [← hafter, List.takeWhile_append_dropWhile]
    have hends (more : List Char) : Ends isNameChar (front ++ ')' :: more) := by
      have hends := ends_dropWhile isNameChar rest
      rw [hafter] at hends
      cases front with
      | nil => exact ends_cons.2 (by decide)
      | cons d front => exact ends_cons.2 (ends_cons.1 hends)
    have hname : IsName (String.ofList word) := by
      show isName (String.ofList word).toList
      rw [String.toList_ofList]
      exact isName_iff.2 ⟨⟨c, _, rfl, hstart⟩, List.forall_mem_cons.2
        ⟨isNameChar_of_isNameStart hstart, List.all_eq_true.1 List.all_takeWhile⟩⟩
    refine ⟨blanks ++ (word ++ front), by simpa [word] using hrest, fun more => ?_⟩
    obtain ⟨ts', hts', hvalues⟩ := hfront more
    obtain ⟨t, ht, htokens⟩ := tokens_word hname (hends more)
    obtain ⟨us, hus, hvalues⟩ := map_consToken_value (t := t) hts' hvalues
    refine ⟨us, ?_, by rw [hvalues, ht]; rfl⟩
    rw [← hus, ← htokens, ← hspaced hblanks, String.toList_ofList]
    simp
  | case7 => cases h

/-! ### Directives -/

/-- Nothing but blanks is an end. -/
theorem expectEnd_eq_ok_iff {rest : List Char} :
    expectEnd rest = .ok () ↔ ∀ c ∈ rest, isBlank c := by
  rw [← trimStart_eq_nil_iff]
  unfold expectEnd
  split
  · next h => simp [h]
  · next h => exact ⟨(nomatch ·), fun hnil => absurd hnil h⟩

/-- What follows the speaker and the emotion in a line of dialogue. -/
def spokenBy (name : List Char) (emotion : Option String) (spoken : List Char) :
    Except Flaw Directive := do
  let (e, rest) ← readQuoted spoken
  expectEnd rest
  let speaker : Speaker :=
    match (Vocabulary.ofWord? (String.ofList name) : Option SpeakerKind) with
    | some .mainCharacter => ⟨.mainCharacter, none⟩
    | some .narrator => ⟨.narrator, none⟩
    | _ => ⟨.character, some (String.ofList name)⟩
  return .dialogue { speaker := speaker, text := e, emotion := emotion }

/-- A quoted expression and blanks are read as what is said, whatever the blanks. -/
theorem spokenBy_piece {name spoken : List Char} {emotion : Option String} {d : Directive}
    (h : spokenBy name emotion spoken = .ok d) :
    ∃ front blanks, spoken = '"' :: (front ++ '"' :: blanks) ∧ (∀ c ∈ blanks, isBlank c) ∧
      ∀ blanks', (∀ c ∈ blanks', isBlank c) →
        spokenBy name emotion ('"' :: (front ++ '"' :: blanks')) = .ok d := by
  simp only [spokenBy, bind, Except.bind] at h
  split at h
  · cases h
  next out hread =>
  obtain ⟨e, rest⟩ := out
  obtain ⟨front, rfl, hagain⟩ := readQuoted_piece hread
  dsimp only at h
  split at h
  · cases h
  next hend =>
  refine ⟨front, rest, rfl, expectEnd_eq_ok_iff.1 hend, fun blanks' hblanks' => ?_⟩
  simp only [spokenBy, bind, Except.bind, hagain, expectEnd_eq_ok_iff.2 hblanks']
  exact h

/-- A name ends at blanks, and at any other character that is none of a name. -/
theorem ends_blanks {blanks : List Char} (hblanks : ∀ c ∈ blanks, isBlank c) {c : Char}
    (hc : isNameChar c = false) (rest : List Char) : Ends isNameChar (blanks ++ c :: rest) := by
  cases blanks with
  | nil => exact ends_cons.2 hc
  | cons d blanks =>
    refine ends_cons.2 ?_
    cases hd : isNameChar d with
    | false => rfl
    | true =>
      have hblank := hblanks d List.mem_cons_self
      rw [isBlank_eq_false_of_isNameChar hd] at hblank
      cases hblank

section Dialogue

variable {name blanks blanks' : List Char} (hname : isName name) (hblanks : ∀ c ∈ blanks, isBlank c)
  (hblanks' : ∀ c ∈ blanks', isBlank c)
include hname hblanks

/-- Blanks and a colon end the name of a speaker. -/
theorem takeWhile_speaker (rest : List Char) :
    (name ++ (blanks ++ ':' :: rest)).takeWhile isNameChar = name ∧
      (name ++ (blanks ++ ':' :: rest)).dropWhile isNameChar = blanks ++ ':' :: rest := by
  have hends : Ends isNameChar (blanks ++ ':' :: rest) := ends_blanks hblanks (by decide) rest
  exact ⟨takeWhile_append_of_ends (isNameChar_of_mem_name hname) hends,
    dropWhile_append_of_ends (isNameChar_of_mem_name hname) hends⟩

include hblanks'

/-- A line without an emotion. -/
theorem dialogue_plain (spoken : List Char) :
    dialogue (name ++ (blanks ++ ':' :: (blanks' ++ '"' :: spoken))) =
      spokenBy name none ('"' :: spoken) := by
  obtain ⟨htake, hdrop⟩ := takeWhile_speaker hname hblanks (blanks' ++ '"' :: spoken)
  have hcolon : trimStart (blanks ++ ':' :: (blanks' ++ '"' :: spoken)) =
      ':' :: (blanks' ++ '"' :: spoken) := trimStart_append hblanks (ends_cons.2 (by decide))
  have hquote : trimStart (blanks' ++ '"' :: spoken) = '"' :: spoken :=
    trimStart_append hblanks' (ends_cons.2 (by decide))
  unfold dialogue
  simp only [htake, hdrop, hname, hcolon, hquote]
  rfl

/-- A line with an emotion. -/
theorem dialogue_felt {inside blanks'' : List Char} (hinside : ')' ∉ inside)
    (hemotion : isName (trim inside)) (hblanks'' : ∀ c ∈ blanks'', isBlank c)
    (spoken : List Char) :
    dialogue (name ++ (blanks ++
        ':' :: (blanks' ++ '(' :: (inside ++ ')' :: (blanks'' ++ '"' :: spoken))))) =
      spokenBy name (some (String.ofList (trim inside))) ('"' :: spoken) := by
  obtain ⟨htake, hdrop⟩ := takeWhile_speaker hname hblanks
    (blanks' ++ '(' :: (inside ++ ')' :: (blanks'' ++ '"' :: spoken)))
  have hcolon (rest : List Char) : trimStart (blanks ++ ':' :: rest) = ':' :: rest :=
    trimStart_append hblanks (ends_cons.2 (by decide))
  have hopen (rest : List Char) : trimStart (blanks' ++ '(' :: rest) = '(' :: rest :=
    trimStart_append hblanks' (ends_cons.2 (by decide))
  have hquote : trimStart (blanks'' ++ '"' :: spoken) = '"' :: spoken :=
    trimStart_append hblanks'' (ends_cons.2 (by decide))
  unfold dialogue
  simp only [htake, hdrop, hname, hcolon, hopen, breakAt?_append hinside, hemotion, if_true,
    hquote]
  rfl

end Dialogue

/-- A line of dialogue has its speaker and the emotion in front of what is said. -/
theorem dialogue_lead {text : List Char} {d : Directive} (h : dialogue text = .ok d) :
    ∃ lead name emotion spoken, text = lead ++ spoken ∧ spokenBy name emotion spoken = .ok d ∧
      ∀ more, dialogue (lead ++ '"' :: more) = spokenBy name emotion ('"' :: more) := by
  have hsplit : text = text.takeWhile isNameChar ++ text.dropWhile isNameChar :=
    List.takeWhile_append_dropWhile.symm
  unfold dialogue at h
  generalize text.takeWhile isNameChar = name at *
  generalize text.dropWhile isNameChar = behind at *
  dsimp only at h
  split at h
  · cases h
  next hnot =>
  have hname : isName name := by simpa using hnot
  split at h
  · next afterColon hcolon =>
    obtain ⟨-, blanks, rfl, hblanks⟩ := exists_blanks_of_trimStart hcolon
    obtain ⟨blanks', hafter, hblanks'⟩ := exists_blanks_trimStart afterColon
    split at h
    · next rest hopen =>
      rw [hopen] at hafter
      split at h
      · cases h
      next inside after hbreak =>
      obtain ⟨hinside, rfl⟩ := breakAt?_eq_some_iff.1 hbreak
      split at h
      · next hemotion =>
        obtain ⟨blanks'', hspoken, hblanks''⟩ := exists_blanks_trimStart after
        refine ⟨name ++ (blanks ++ ':' :: (blanks' ++ '(' :: (inside ++ ')' :: blanks''))), name,
          some (String.ofList (trim inside)), trimStart after, ?_, h, fun more => ?_⟩
        · simp only [hsplit, hafter, List.append_assoc, List.cons_append, ← hspoken]
        · have hfelt := dialogue_felt hname hblanks hblanks' hinside hemotion hblanks'' more
          rw [← hfelt]
          simp
      · cases h
    · refine ⟨name ++ (blanks ++ ':' :: blanks'), name, none, trimStart afterColon, ?_, h,
        fun more => ?_⟩
      · simp only [hsplit, List.append_assoc, List.cons_append, ← hafter]
      · rw [← dialogue_plain hname hblanks hblanks' more]
        simp
  · cases h

/-- A directive takes the text up to its last character that is no blank, and is the same directive
    whatever blanks stand behind. -/
def Through (read : List Char → Except Flaw Directive) (text : List Char) (d : Directive) : Prop :=
  ∃ front c blanks, text = front ++ c :: blanks ∧ isBlank c = false ∧ (∀ b ∈ blanks, isBlank b) ∧
    ∀ blanks', (∀ b ∈ blanks', isBlank b) → read (front ++ c :: blanks') = .ok d

theorem dialogue_through {text : List Char} {d : Directive} (h : dialogue text = .ok d) :
    Through dialogue text d := by
  obtain ⟨lead, name, emotion, spoken, rfl, hspoken, hlead⟩ := dialogue_lead h
  obtain ⟨front, blanks, rfl, hblanks, hagain⟩ := spokenBy_piece hspoken
  refine ⟨lead ++ '"' :: front, '"', blanks, by simp, by decide, hblanks, fun more hmore => ?_⟩
  rw [← hagain more hmore, ← hlead]
  simp

/-- The word at the head of a log entry stands in front of the message. -/
theorem afterLogWord?_lead {text quoted : List Char} (h : afterLogWord? text = some quoted) :
    ∃ lead, text = lead ++ quoted ∧
      ∀ more, afterLogWord? (lead ++ '"' :: more) = some ('"' :: more) := by
  unfold afterLogWord? at h
  split at h
  · next rest =>
    split at h
    · next after hword =>
      split at h
      · cases h
      next hend =>
      cases h
      obtain ⟨-, blanks, rfl, hblanks⟩ := exists_blanks_of_trimStart hword
      obtain ⟨blanks', hafter, hblanks'⟩ := exists_blanks_trimStart after
      refine ⟨'{' :: (blanks ++ 'l' :: 'o' :: 'g' :: blanks'), ?_, fun more => ?_⟩
      · simp [← hafter]
      · have htrim : trimStart (blanks ++ 'l' :: 'o' :: 'g' :: (blanks' ++ '"' :: more)) =
            'l' :: 'o' :: 'g' :: (blanks' ++ '"' :: more) :=
          trimStart_append hblanks (ends_cons.2 (by decide))
        have hquote : trimStart (blanks' ++ '"' :: more) = '"' :: more :=
          trimStart_append hblanks' (ends_cons.2 (by decide))
        have hends : Ends isNameChar (blanks' ++ '"' :: more) :=
          ends_blanks hblanks' (by decide) more
        have hhead : (((blanks' ++ '"' :: more).head?.map isNameChar).getD false) = false := by
          cases hc : (blanks' ++ '"' :: more).head? with
          | none => rfl
          | some c => exact hends c hc
        simp only [List.cons_append, List.append_assoc, afterLogWord?, htrim, hhead, hquote]
        rfl
    · cases h
  · cases h

theorem logEntry_through {text : List Char} {d : Directive} (h : logEntry text = .ok d) :
    Through logEntry text d := by
  unfold logEntry at h
  split at h
  · cases h
  next quoted hword =>
  obtain ⟨lead, rfl, hlead⟩ := afterLogWord?_lead hword
  simp only [bind, Except.bind] at h
  split at h
  · cases h
  next out hread =>
  obtain ⟨e, rest⟩ := out
  obtain ⟨front, rfl, hagain⟩ := readQuoted_piece hread
  dsimp only at h
  split at h
  · next after hclose =>
    split at h
    · cases h
    next hend =>
    obtain ⟨-, blanks, rfl, hblanks⟩ := exists_blanks_of_trimStart hclose
    refine ⟨lead ++ '"' :: (front ++ '"' :: blanks), '}', after, by simp, by decide,
      expectEnd_eq_ok_iff.1 hend, fun more hmore => ?_⟩
    have hmessage : lead ++ '"' :: (front ++ '"' :: blanks) ++ '}' :: more =
        lead ++ '"' :: (front ++ '"' :: (blanks ++ '}' :: more)) := by simp
    have htrim : trimStart (blanks ++ '}' :: more) = '}' :: more :=
      trimStart_append hblanks (ends_cons.2 (by decide))
    rw [hmessage, logEntry, hlead]
    simp only [bind, Except.bind, hagain, htrim, expectEnd_eq_ok_iff.2 hmore]
    exact h
  · cases h

/-- What a phrase says lies in the values of its tokens, not in where they stand. -/
theorem phrase_congr {ts ts' : List Token} (hts : ∀ t ∈ ts, t.value.Parsed)
    (hvalues : ts'.map (·.value) = ts.map (·.value)) {d : StageDirection}
    (h : phrase ts = .ok d) : phrase ts' = .ok d := by
  have hall : ∀ v ∈ ts'.map (·.value), v.Parsed := by
    rw [hvalues]
    simpa using hts
  have hts' : ∀ t ∈ ts', t.value.Parsed := by simpa using hall
  rw [phrase_eq_ok_iff hts', hvalues]
  exact (phrase_eq_ok_iff hts).1 h

theorem stageDirection_through {text : List Char} {d : Directive}
    (h : stageDirection text = .ok d) : Through stageDirection text d := by
  simp only [stageDirection, bind, Except.bind] at h
  split at h
  · cases h
  next out htokens =>
  obtain ⟨ts, after⟩ := out
  obtain ⟨front, htail, hagain⟩ := tokens_piece htokens
  obtain ⟨c, rfl⟩ : ∃ c, text = c :: (front ++ ')' :: after) := by
    cases text with
    | nil => simp at htail
    | cons c rest => exact ⟨c, congrArg _ htail⟩
  dsimp only at h
  split at h
  · cases h
  next hend =>
  split at h
  · cases h
  next hsome =>
  split at h
  · cases h
  next direction hphrase =>
  refine ⟨c :: front, ')', after, rfl, by decide, expectEnd_eq_ok_iff.1 hend, fun more hmore => ?_⟩
  obtain ⟨ts', htokens', hvalues⟩ := hagain more
  have hsome' : ts'.isEmpty = false := by
    have hlength := congrArg List.length hvalues
    rw [List.length_map, List.length_map] at hlength
    cases ts' <;> cases ts <;> simp_all
  have hphrase' := phrase_congr (tokens_parsed htokens) hvalues hphrase
  simp only [stageDirection, bind, Except.bind, List.cons_append, List.tail_cons, htokens',
    expectEnd_eq_ok_iff.2 hmore, hsome', hphrase']
  exact h

/-- The first character of a text decides which reader takes it. -/
theorem exists_reader (text : List Char) :
    ∃ read : List Char → Except Flaw Directive,
      (∀ text', text'.head? = text.head? → directive text' = read text') ∧
      ∀ {d}, read text = .ok d → Through read text d := by
  by_cases hopen : text.head? = some '('
  · refine ⟨stageDirection, fun text' hhead => ?_, stageDirection_through⟩
    obtain ⟨rest, rfl⟩ := List.head?_eq_some_iff.1 (hhead.trans hopen)
    rfl
  by_cases hbrace : text.head? = some '{'
  · refine ⟨logEntry, fun text' hhead => ?_, logEntry_through⟩
    obtain ⟨rest, rfl⟩ := List.head?_eq_some_iff.1 (hhead.trans hbrace)
    rfl
  · refine ⟨dialogue, fun text' hhead => ?_, dialogue_through⟩
    unfold directive
    split
    · exact absurd hhead.symm hopen
    · exact absurd hhead.symm hbrace
    · rfl

theorem directive_through {text : List Char} {d : Directive} (h : directive text = .ok d) :
    Through directive text d := by
  obtain ⟨read, hreader, hthrough⟩ := exists_reader text
  rw [hreader text rfl] at h
  obtain ⟨front, c, blanks, rfl, hc, hblanks, hagain⟩ := hthrough h
  refine ⟨front, c, blanks, rfl, hc, hblanks, fun more hmore => ?_⟩
  rw [hreader _ (by cases front <;> rfl)]
  exact hagain more hmore

/-- What stands behind a directive does not matter, as long as it is blank. -/
theorem directive_congr {text text' : List Char} {d : Directive} (h : directive text = .ok d)
    (htrim : trimEnd text' = trimEnd text) : directive text' = .ok d := by
  obtain ⟨front, c, blanks, rfl, hc, hblanks, hagain⟩ := directive_through h
  obtain ⟨blanks', htext', hblanks'⟩ := exists_blanks_trimEnd text'
  have hkept : trimEnd (front ++ c :: blanks) = front ++ [c] := by
    rw [List.append_cons, trimEnd_append_blanks hblanks, trimEnd_append_singleton hc]
  rw [htext', htrim, hkept, List.append_assoc]
  exact hagain blanks' hblanks'

end VisualNovel.Script

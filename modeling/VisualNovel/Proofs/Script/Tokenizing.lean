import VisualNovel.Proofs.Script.Chunks

/-!
Each chunk of a phrase is read back as one token that says the same.
-/

namespace VisualNovel

/-- What a token has to be to say what a chunk says. -/
def Chunk.Says : Chunk → Script.TokenValue → Prop
  | word w, v => v = .word w
  | text s, v => ∃ e, v = .text e ∧ e.variableNames = [] ∧ e.literalText = s
  | number x, v => v = .number (Number.reread x)
  | layer n, v => ∃ x, v = .number x ∧ Number.isWhole x ∧ Number.truncate x = .ok n

/-- What a chunk has to be for it to be read back. -/
def Chunk.Readable : Chunk → Prop
  | word w => IsName w
  | text _ => True
  | number x => Number.IsPlain x
  | layer n => IsDouble n

namespace Script

open Text

/-- Blanks in front of the first token do not matter. -/
theorem tokens_congr {text text' : List Char} (h : trimStart text = trimStart text') :
    tokens text = tokens text' := by
  rw [tokens.eq_def text, tokens.eq_def text']
  generalize trimStart text = trimmed at *
  generalize trimStart text' = trimmed' at *
  rw [h]

theorem tokens_close (after : List Char) : tokens (')' :: after) = .ok ([], after) := by
  rw [tokens.eq_def]
  have htrim : trimStart (')' :: after) = ')' :: after := trimStart_of_ends (ends_cons.2 (by decide))
  split
  · next h => simp [htrim] at h
  · next c rest h =>
    rw [htrim] at h
    cases h
    rfl

/-- A character that begins no name is another one than any that begins one. -/
theorem ne_of_isNameStart {c d : Char} (hc : isNameStart c) (hd : isNameStart d = false) :
    (c == d) = false := by
  rw [beq_eq_false_iff_ne]
  rintro rfl
  rw [hc] at hd
  cases hd

/-- What begins with a digit or a sign is a number, or nothing is. -/
theorem numberAt?_cons {c : Char} (hminus : c ≠ '-') (hdigit : isDigit c = false)
    (text : List Char) : numberAt? (c :: text) = none := by
  have hsign : sign (c :: text) = (false, c :: text) := by
    unfold sign
    split
    · next heq =>
      cases heq
      exact absurd rfl hminus
    · rfl
  unfold numberAt?
  rw [hsign]
  simp [hdigit]

/-- A word is one token, wherever the next character is none of a name. -/
theorem tokens_word {w : String} (hw : IsName w) {rest : List Char} (hrest : Ends isNameChar rest) :
    ∃ t : Token, t.value = .word w ∧
      tokens (' ' :: (w.toList ++ rest)) = (tokens rest).map (consToken t) := by
  obtain ⟨⟨c, more, hword, hstart⟩, hchars⟩ := isName_iff.1 (show isName w.toList from hw)
  have htrim : trimStart (' ' :: (w.toList ++ rest)) = c :: (more ++ rest) := by
    rw [trimStart_blank (by decide), trimStart_name hw, hword, List.cons_append]
  have hmore : ∀ d ∈ more, isNameChar d := fun d hd => hchars d (hword ▸ List.mem_cons_of_mem c hd)
  have hnumber : numberAt? (c :: (more ++ rest)) = none := by
    refine numberAt?_cons ?_ (isDigit_eq_false_of_isNameStart hstart) _
    exact beq_eq_false_iff_ne.1 (ne_of_isNameStart hstart (by decide))
  rw [tokens.eq_def]
  split
  · next h => simp [htrim] at h
  · next d tail h =>
    rw [htrim] at h
    cases h
    rw [ne_of_isNameStart hstart (by decide : isNameStart ')' = false),
      ne_of_isNameStart hstart (by decide : isNameStart '"' = false)]
    simp only [Bool.false_eq_true, if_false]
    split
    · next h => simp [hnumber] at h
    · rw [if_pos hstart, takeWhile_append_of_ends hmore hrest, dropWhile_append_of_ends hmore hrest]
      refine ⟨_, ?_, rfl⟩
      rw [← hword, String.ofList_toList]

theorem isDigit_eq_false_of_isBlank {c : Char} (h : isBlank c) : isDigit c = false := by
  have hnone : ∀ n ∈ blankCodes, isDigit (Char.ofNat n) = false := by decide
  have hc := hnone c.toNat (mem_blankCodes_of_isBlank h)
  rwa [Char.ofNat_toNat] at hc

/-- A number is one token, if it is one at all. -/
theorem tokens_number {c : Char} {cs rest : List Char} {x : Float}
    (h : numberAt? (c :: cs) = some (x, rest)) :
    ∃ t : Token, t.value = .number x ∧
      tokens (' ' :: c :: cs) = (tokens rest).map (consToken t) := by
  have hfirst : ∀ d, d ≠ '-' → isDigit d = false → c ≠ d := by
    rintro d hminus hdigit rfl
    rw [numberAt?_cons hminus hdigit] at h
    cases h
  have hclose : (c == ')') = false :=
    beq_eq_false_iff_ne.2 (hfirst ')' (by decide) (by decide))
  have hquote : (c == '"') = false :=
    beq_eq_false_iff_ne.2 (hfirst '"' (by decide) (by decide))
  have hblank : isBlank c = false := by
    cases hb : isBlank c with
    | false => rfl
    | true =>
      refine absurd rfl (hfirst c ?_ (isDigit_eq_false_of_isBlank hb))
      rintro rfl
      exact absurd hb (by decide)
  have htrim : trimStart (' ' :: c :: cs) = c :: cs := by
    rw [trimStart_blank (by decide)]
    exact trimStart_of_ends (ends_cons.2 hblank)
  rw [tokens.eq_def]
  split
  · next h' => simp [htrim] at h'
  · next d tail h' =>
    rw [htrim] at h'
    cases h'
    rw [hclose, hquote]
    simp only [Bool.false_eq_true, if_false]
    split
    · next y after hnumber =>
      rw [h, Option.some.injEq, Prod.mk.injEq] at hnumber
      obtain ⟨rfl, rfl⟩ := hnumber
      exact ⟨_, rfl, rfl⟩
    · next hnone => simp [h] at hnone

/-- A quoted expression is one token. -/
theorem tokens_quoted {cs rest : List Char} {e : Expression}
    (h : readQuoted ('"' :: cs) = .ok (e, rest)) :
    ∃ t : Token, t.value = .text e ∧
      tokens (' ' :: '"' :: cs) = (tokens rest).map (consToken t) := by
  have htrim : trimStart (' ' :: '"' :: cs) = '"' :: cs := by
    rw [trimStart_blank (by decide)]
    exact trimStart_of_ends (ends_cons.2 (by decide))
  rw [tokens.eq_def]
  split
  · next h' => simp [htrim] at h'
  · next d tail h' =>
    rw [htrim] at h'
    cases h'
    have hclose : ('"' == ')') = false := by decide
    rw [hclose]
    simp only [Bool.false_eq_true, if_false, beq_self_eq_true, if_true]
    split
    · next flaw hread => simp [h] at hread
    · next e' after hread =>
      rw [h, Except.ok.injEq, Prod.mk.injEq] at hread
      obtain ⟨rfl, rfl⟩ := hread
      exact ⟨_, rfl, rfl⟩

/-! ### Rows of chunks -/

/-- What stands behind a chunk: a space or the closing parenthesis. -/
def ChunkEnds (rest : List Char) : Prop := ∀ c ∈ rest.head?, c = ' ' ∨ c = ')'

theorem ChunkEnds.ends {rest : List Char} (h : ChunkEnds rest) {p : Char → Bool}
    (hspace : p ' ' = false) (hclose : p ')' = false) : Ends p rest := by
  intro c hc
  rcases h c hc with rfl | rfl
  · exact hspace
  · exact hclose

theorem chunkEnds_row (chunks : List Chunk) (after : List Char) :
    ChunkEnds (Chunk.row chunks ++ ')' :: after) := by
  cases chunks <;> simp [ChunkEnds]

/-- A quoted text has no variables, and says that text. -/
theorem normalize_literal (s : String) :
    (Expression.normalize [.literal s]).variableNames = [] ∧
      (Expression.normalize [.literal s]).literalText = s := by
  by_cases hs : s = ""
  · subst hs
    decide
  · have hnormal : Expression.IsNormal [.literal s] :=
      ⟨by simpa using hs, by simp [Expression.MayFollow], trivial⟩
    rw [Expression.normalize_eq_self hnormal]
    simp [Expression.variableNames, Expression.literalText]

theorem exists_quotedText_eq (s : String) : ∃ more, (quotedText s).toList = '"' :: more := by
  unfold quotedText Expression.source
  rw [String.toList_ofList]
  exact ⟨_, rfl⟩

theorem tokens_number_append {cs rest : List Char} {x : Float}
    (h : numberAt? (cs ++ rest) = some (x, rest)) :
    ∃ t : Token, t.value = .number x ∧
      tokens (' ' :: (cs ++ rest)) = (tokens rest).map (consToken t) := by
  cases hcs : cs ++ rest with
  | nil =>
    rw [hcs] at h
    cases h
  | cons c more =>
    rw [hcs] at h
    exact tokens_number h

/-- A readable chunk is one token, and says what it says. -/
theorem tokens_chunk {c : Chunk} (hc : c.Readable) {rest : List Char} (hrest : ChunkEnds rest) :
    ∃ t : Token, c.Says t.value ∧
      tokens (' ' :: (c.written ++ rest)) = (tokens rest).map (consToken t) := by
  have hnumber : NumberEnds rest := hrest.ends (by decide) (by decide)
  cases c with
  | word w => exact tokens_word hc (hrest.ends (by decide) (by decide))
  | text s =>
    have hread := readQuoted_quotedText s rest
    obtain ⟨more, hmore⟩ := exists_quotedText_eq s
    simp only [Chunk.Says, Chunk.written]
    rw [hmore, List.cons_append] at hread ⊢
    obtain ⟨t, ht, htokens⟩ := tokens_quoted hread
    exact ⟨t, ⟨_, ht, normalize_literal s⟩, htokens⟩
  | number x =>
    have hplain : Number.IsPlain x := hc
    exact tokens_number_append (numberAt?_shortestOrWhole hplain hnumber)
  | layer n =>
    have hdouble : IsDouble n := hc
    obtain ⟨x, hx, hwhole⟩ := numberAt?_layer hdouble hnumber
    obtain ⟨t, ht, htokens⟩ := tokens_number_append hx
    exact ⟨t, ⟨x, ht, hwhole⟩, htokens⟩

/-- The tokens begin with some that say these chunks, one each, and go on with `rest`. -/
def Says : (chunks : List Chunk) → (rest ts : List Token) → Prop
  | [], rest, ts => ts = rest
  | c :: chunks, rest, ts => ∃ t more, ts = t :: more ∧ c.Says t.value ∧ Says chunks rest more

/-- A row of readable chunks is read back token by token. -/
theorem tokens_row {chunks : List Chunk} (hchunks : ∀ c ∈ chunks, c.Readable) (after : List Char) :
    ∃ ts, tokens (Chunk.row chunks ++ ')' :: after) = .ok (ts, after) ∧ Says chunks [] ts := by
  induction chunks with
  | nil => exact ⟨[], tokens_close after, rfl⟩
  | cons c rest ih =>
    obtain ⟨hc, hrest⟩ := List.forall_mem_cons.1 hchunks
    obtain ⟨ts, hts, hall⟩ := ih hrest
    obtain ⟨t, ht, htokens⟩ := tokens_chunk hc (chunkEnds_row rest after)
    refine ⟨t :: ts, ?_, t, ts, rfl, ht, hall⟩
    rw [Chunk.row_cons, List.cons_append, List.append_assoc, htokens, hts]
    rfl

end Script

end VisualNovel

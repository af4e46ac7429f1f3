import Mathlib.Algebra.Group.Nat.Defs
import VisualNovel.Proofs.Text.Lines
import VisualNovel.Text.Utf8

/-!
Decoding and where characters stand among the bytes. A character takes as many bytes as it takes in
UTF-8, so the bytes behind a piece of text decode to the text behind it.
-/

namespace VisualNovel.Text

/-! ### One character -/

/-- What the bytes after a first byte make of its bits, and which bytes are left. -/
theorem of_continuation {owed lo hi bits code : Nat} {bytes after : List UInt8}
    (h : continuation (owed + 1) lo hi bits bytes = .ok (code, after)) :
    (bits * 64 + (lo - 0x80)) * 64 ^ owed ≤ code ∧
      code < (bits * 64 + (hi - 0x80) + 1) * 64 ^ owed ∧ after = bytes.drop (owed + 1) := by
  induction owed generalizing lo hi bits bytes with
  | zero =>
    cases bytes with
    | nil => simp [continuation] at h
    | cons b rest =>
      rw [continuation] at h
      split at h
      · next hrange =>
        rw [continuation, Except.ok.injEq, Prod.mk.injEq] at h
        obtain ⟨rfl, rfl⟩ := h
        rw [Nat.pow_zero, Nat.mul_one, Nat.mul_one]
        exact ⟨by omega, by omega, rfl⟩
      · simp at h
  | succ owed ih =>
    have hpow (n : Nat) : n * 64 ^ (owed + 1) = n * 64 * 64 ^ owed := by
      rw [Nat.pow_succ, Nat.mul_comm (64 ^ owed), Nat.mul_assoc]
    cases bytes with
    | nil => simp [continuation] at h
    | cons b rest =>
      rw [continuation] at h
      split at h
      · next hrange =>
        obtain ⟨hle, hlt, hafter⟩ := ih h
        refine ⟨?_, ?_, by rw [hafter, List.drop_succ_cons]⟩
        · rw [hpow]
          exact Nat.le_trans (Nat.mul_le_mul_right _ (by omega)) hle
        · rw [hpow]
          exact Nat.lt_of_lt_of_le hlt (Nat.mul_le_mul_right _ (by omega))
      · simp at h

/-- The number of bytes of a character, by its code point. -/
theorem utf8Size_ofNat {code : Nat} (hvalid : code.isValidChar) :
    (Char.ofNat code).utf8Size =
      if code < 0x80 then 1 else if code < 0x800 then 2 else if code < 0x10000 then 3 else 4 := by
  have hval : (Char.ofNat code).val.toNat = code := by
    unfold Char.ofNat
    rw [dif_pos hvalid]
    rfl
  have hle (n : UInt32) : (Char.ofNat code).val ≤ n ↔ code < n.toNat + 1 := by
    rw [UInt32.le_iff_toNat_le, hval, Nat.lt_succ_iff]
  unfold Char.utf8Size
  simp only [hle]
  rfl

/-- A first byte and the bytes that it calls for make a character of as many bytes. -/
theorem utf8Size_of_leadByte? {b owed lo hi bits code : Nat} {bytes after : List UInt8}
    (hlead : leadByte? b = some (owed, lo, hi, bits))
    (h : continuation owed lo hi bits bytes = .ok (code, after)) :
    (Char.ofNat code).utf8Size = owed + 1 ∧ after = bytes.drop owed := by
  unfold leadByte? at hlead
  split at hlead
  · next hb =>
    cases hlead
    rw [continuation, Except.ok.injEq, Prod.mk.injEq] at h
    obtain ⟨rfl, rfl⟩ := h
    rw [utf8Size_ofNat (.inl (by omega)), if_pos hb]
    exact ⟨rfl, rfl⟩
  split at hlead
  · next hb =>
    simp only [Option.some.injEq, Prod.mk.injEq] at hlead
    obtain ⟨rfl, rfl, rfl, rfl⟩ := hlead
    obtain ⟨hle, hlt, hafter⟩ := of_continuation h
    refine ⟨?_, hafter⟩
    rw [utf8Size_ofNat (.inl (by omega)), if_neg (by omega), if_pos (by omega)]
  split at hlead
  · next hb =>
    simp only [Option.some.injEq, Prod.mk.injEq] at hlead
    obtain ⟨rfl, rfl, rfl, rfl⟩ := hlead
    obtain ⟨hle, hlt, hafter⟩ := of_continuation h
    refine ⟨?_, hafter⟩
    have hvalid : code.isValidChar := by
      unfold Nat.isValidChar
      split at hlt <;> omega
    rw [utf8Size_ofNat hvalid, if_neg, if_neg, if_pos]
    · split at hlt <;> omega
    · split at hle <;> omega
    · split at hle <;> omega
  split at hlead
  · next hb =>
    simp only [Option.some.injEq, Prod.mk.injEq] at hlead
    obtain ⟨rfl, rfl, rfl, rfl⟩ := hlead
    obtain ⟨hle, hlt, hafter⟩ := of_continuation h
    refine ⟨?_, hafter⟩
    have hge : 0x10000 ≤ code := by split at hle <;> omega
    have hvalid : code.isValidChar := by
      refine .inr ⟨by omega, ?_⟩
      split at hlt <;> omega
    rw [utf8Size_ofNat hvalid, if_neg (by omega), if_neg (by omega), if_neg (by omega)]
  · cases hlead

/-! ### Texts -/

theorem decodeUtf8From_cons_eq_ok {start : Nat} {b : UInt8} {bytes : List UInt8} {cs : List Char} :
    decodeUtf8From start (b :: bytes) = .ok cs ↔ ∃ owed lo hi bits code after rest,
      leadByte? b.toNat = some (owed, lo, hi, bits) ∧
      continuation owed lo hi bits bytes = .ok (code, after) ∧
      decodeUtf8From (start + owed + 1) after = .ok rest ∧ cs = Char.ofNat code :: rest := by
  rw [decodeUtf8From]
  constructor
  · intro h
    split at h
    · cases h
    · next owed lo hi bits hlead =>
      split at h
      · cases h
      · next code after hcontinuation =>
        split at h
        · cases h
        · next rest hrest =>
          cases h
          exact ⟨owed, lo, hi, bits, code, after, rest, hlead, hcontinuation, hrest, rfl⟩
  · rintro ⟨owed, lo, hi, bits, code, after, rest, hlead, hcontinuation, hrest, rfl⟩
    simp only [hlead]
    split
    · next flaw herror =>
      rw [hcontinuation] at herror
      cases herror
    · next code' after' hok =>
      rw [hcontinuation, Except.ok.injEq, Prod.mk.injEq] at hok
      obtain ⟨rfl, rfl⟩ := hok
      rw [hrest]

/-- Where the bytes stand is told only in errors. -/
theorem decodeUtf8From_ok {start : Nat} {bytes : List UInt8} {cs : List Char}
    (h : decodeUtf8From start bytes = .ok cs) (start' : Nat) :
    decodeUtf8From start' bytes = .ok cs := by
  induction cs generalizing start start' bytes with
  | nil =>
    cases bytes with
    | nil => simp [decodeUtf8From]
    | cons b bytes =>
      obtain ⟨_, _, _, _, _, _, _, -, -, -, heq⟩ := decodeUtf8From_cons_eq_ok.1 h
      cases heq
  | cons c cs ih =>
    cases bytes with
    | nil => simp [decodeUtf8From] at h
    | cons b bytes =>
      obtain ⟨owed, lo, hi, bits, code, after, rest, hlead, hcontinuation, hrest, heq⟩ :=
        decodeUtf8From_cons_eq_ok.1 h
      cases heq
      exact decodeUtf8From_cons_eq_ok.2 ⟨owed, lo, hi, bits, code, after, cs, hlead, hcontinuation,
        ih hrest _, rfl⟩

/-- The first character of a text takes its bytes off the front. -/
theorem decodeUtf8_cons {bytes : List UInt8} {c : Char} {cs : List Char}
    (h : decodeUtf8 bytes = .ok (c :: cs)) : decodeUtf8 (bytes.drop c.utf8Size) = .ok cs := by
  cases bytes with
  | nil => simp [decodeUtf8, decodeUtf8From] at h
  | cons b bytes =>
    obtain ⟨owed, lo, hi, bits, code, after, rest, hlead, hcontinuation, hrest, heq⟩ :=
      decodeUtf8From_cons_eq_ok.1 h
    cases heq
    obtain ⟨hsize, hafter⟩ := utf8Size_of_leadByte? hlead hcontinuation
    rw [hsize, List.drop_succ_cons, ← hafter]
    exact decodeUtf8From_ok hrest 0

/-- Behind the bytes of a piece of text the rest of it is read. -/
theorem decodeUtf8_append {bytes : List UInt8} {front rest : List Char}
    (h : decodeUtf8 bytes = .ok (front ++ rest)) :
    decodeUtf8 (bytes.drop (utf8Length front)) = .ok rest := by
  induction front generalizing bytes with
  | nil => exact h
  | cons c front ih =>
    rw [utf8Length, ← List.drop_drop]
    exact ih (decodeUtf8_cons h)

end VisualNovel.Text

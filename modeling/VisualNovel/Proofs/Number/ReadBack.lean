import Mathlib.Tactic.Positivity
import VisualNovel.Proofs.Number.Digits
import VisualNovel.Proofs.Number.Nearest

/-!
The shortest digits of a double stand for a decimal whose nearest double it is. Written without an
exponent they are whole digits and decimal places that say the same decimal.
-/

namespace VisualNovel.Number

open Script Text

/-- The search ends at a decimal that reads back. -/
theorem firstThatReadsBack_reads {bits exact : Nat}
    (hexact : nearestBits exact (Nat.pow 10 1074) = bits) (drop : Nat) :
    nearestBits ((firstThatReadsBack bits exact drop).1 *
      Nat.pow 10 (firstThatReadsBack bits exact drop).2) (Nat.pow 10 1074) = bits := by
  induction drop with
  | zero =>
    show nearestBits (exact * 1) _ = _
    rwa [Nat.mul_one]
  | succ drop ih =>
    unfold firstThatReadsBack
    dsimp only
    split
    · next n hn =>
      have hreads := List.find?_some hn
      rwa [beq_iff_eq] at hreads
    · exact ih

/-- All digits of a double read back. -/
theorem nearestBits_exactDecimal {bits : Nat} (h : bits < infinityBits) :
    nearestBits (exactDecimal (unitsOfBits bits)) (Nat.pow 10 1074) = bits := by
  refine Eq.trans ?_ (nearestBits_unitsOfBits h)
  unfold exactDecimal unitsPerOne
  generalize 1074 = k
  have hpow : Nat.pow 10 k = Nat.pow 2 k * Nat.pow 5 k := Nat.mul_pow 2 5 k
  rw [hpow]
  exact nearestBits_mul_right _ _ (Nat.pow_pos (by decide))

/-- Digits without the zeros at their end, and those zeros. -/
theorem eq_append_replicate_zero (ds : List Char) :
    ∃ z, ds = (ds.reverse.dropWhile (· == '0')).reverse ++ List.replicate z '0' := by
  have hsplit := List.takeWhile_append_dropWhile (p := (· == '0')) (l := ds.reverse)
  have hzeros : ∀ c ∈ ds.reverse.takeWhile (· == '0'), c = '0' := fun c hc => by
    simpa using List.all_eq_true.1 List.all_takeWhile c hc
  refine ⟨(ds.reverse.takeWhile (· == '0')).length, ?_⟩
  generalize ds.reverse.takeWhile (· == '0') = zeros at *
  rw [← List.reverse_replicate, ← List.eq_replicate_iff.2 ⟨rfl, hzeros⟩, ← List.reverse_append,
    hsplit, List.reverse_reverse]

theorem nearestBits_zero {den : Nat} (h : 0 < den) : nearestBits 0 den = 0 := by
  have hcongr : nearestBits 0 den = nearestBits 0 unitsPerOne :=
    nearestBits_congr h unitsPerOne_pos (by rw [Nat.zero_mul, Nat.zero_mul])
  rw [hcongr]
  exact @nearestBits_unitsOfBits 0 (by decide)

/-- The digits of a double are those of a number that reads back, without the zeros at its end. -/
theorem shortestDigits_eq {bits : Nat} (h : bits < infinityBits) :
    ∃ n drop, nearestBits (n * Nat.pow 10 drop) (Nat.pow 10 1074) = bits ∧
      shortestDigits bits = Digits.ofDropped n drop := by
  have hexact := nearestBits_exactDecimal h
  unfold shortestDigits
  dsimp only
  generalize exactDecimal (unitsOfBits bits) = exact at *
  exact ⟨_, _, firstThatReadsBack_reads hexact _, rfl⟩

/-- What digits spell: as many places after the point as `point` says, they are a decimal whose
    nearest double has these bits. -/
structure Digits.Spells (d : Digits) (bits : Nat) : Prop where
  digits : ∀ c ∈ d.digits, isDigit c
  value_pos : 0 < digitsValue d.digits
  leading : 10 ^ (d.digits.length - 1) ≤ digitsValue d.digits
  nearest : ∃ e k : Nat, d.point = (d.digits.length : Int) + e - k ∧
    nearestBits (digitsValue d.digits * 10 ^ e) (10 ^ k) = bits

theorem Digits.ofDropped_spells {bits n drop k : Nat} (hpos : 0 < bits)
    (hreads : nearestBits (n * Nat.pow 10 drop) (Nat.pow 10 k) = bits) (hk : k = 1074) :
    (Digits.ofDropped n drop).Spells bits := by
  have hn : 0 < n := by
    refine Nat.pos_of_ne_zero fun hzero => ?_
    rw [hzero, Nat.zero_mul, nearestBits_zero] at hreads
    · omega
    · exact Nat.pow_pos (by decide)
  obtain ⟨z, hz⟩ := eq_append_replicate_zero (digitsOf n)
  obtain ⟨ds, hds⟩ : ∃ ds, ds = (Digits.ofDropped n drop).digits := ⟨_, rfl⟩
  have hkept : digitsOf n = ds ++ List.replicate z '0' := by rw [hds]; exact hz
  have hvalue : digitsValue ds * 10 ^ z = n := by
    have hn := digitsValue_digitsOf n
    rwa [hkept, digitsValue_append, digitsValue_replicate_zero, Nat.add_zero,
      List.length_replicate] at hn
  have hvalue_pos : 0 < digitsValue ds := by
    refine Nat.pos_of_ne_zero fun hzero => ?_
    rw [hzero, Nat.zero_mul] at hvalue
    omega
  refine ⟨?_, ?_, ?_, drop + z, k, ?_, ?_⟩
  · rw [← hds]
    exact fun c hc => isDigit_of_mem_digitsOf c (hkept ▸ List.mem_append_left _ hc)
  · rwa [← hds]
  · rw [← hds]
    have hlow := pow_length_digitsOf_le hn
    rw [hkept, List.length_append, List.length_replicate] at hlow
    by_cases hlen : ds.length = 0
    · rw [hlen]
      exact hvalue_pos
    · have hsplit : ds.length + z - 1 = ds.length - 1 + z := by omega
      rw [hsplit, Nat.pow_add, ← hvalue] at hlow
      exact Nat.le_of_mul_le_mul_right hlow (Nat.pow_pos (by decide))
  · rw [← hds]
    show (((digitsOf n).length + drop : Nat) : Int) - 1074 = _
    rw [hkept, List.length_append, List.length_replicate]
    omega
  · rw [← hds, Nat.add_comm drop, Nat.pow_add, ← Nat.mul_assoc, hvalue]
    exact hreads

theorem shortestDigits_spells {bits : Nat} (hpos : 0 < bits) (h : bits < infinityBits) :
    (shortestDigits bits).Spells bits := by
  obtain ⟨n, drop, hreads, heq⟩ := shortestDigits_eq h
  rw [heq]
  exact Digits.ofDropped_spells hpos hreads rfl

/-! ### Without an exponent -/

/-- A decimal with `f` places, as long as its digits are not all too far behind the point. -/
theorem ofDecimal_neg {v f : Nat} (hv : 0 < v) (hf : 3 * f ≤ 1200 + v.log2) (negative : Bool) :
    ofDecimal negative v (-(f : Int)) = ofMagnitudeBits negative (nearestBits v (10 ^ f)) := by
  unfold ofDecimal
  dsimp only
  rw [if_neg (Nat.pos_iff_ne_zero.1 hv), if_neg (by omega), if_neg (by omega)]
  by_cases hzero : f = 0
  · subst hzero
    rw [if_pos (by decide)]
    show ofMagnitudeBits _ (nearestBits (v * 1) 1) = _
    rw [Nat.mul_one, Nat.pow_zero]
  · rw [if_neg (by omega), Int.neg_neg, Int.toNat_natCast]
    rfl

/-- A text with a point in it: digits before it and after it, and the number of magnitude bits
    `bits` that they write. -/
structure Positional (bits : Nat) (whole places : List Char) : Prop where
  whole_ne_nil : whole ≠ []
  places_ne_nil : places ≠ []
  digits : ∀ c ∈ whole ++ places, isDigit c
  reads : ∀ negative, ofDecimal negative (digitsValue (whole ++ places)) (-(places.length : Int)) =
    ofMagnitudeBits negative bits

/-- The number of its digits bounds the size of a number. -/
theorem Digits.Spells.length_le_log2 {d : Digits} {bits : Nat} (h : d.Spells bits) :
    3 * (d.digits.length - 1) ≤ (digitsValue d.digits).log2 := by
  refine (Nat.le_log2 (Nat.pos_iff_ne_zero.1 h.value_pos)).2 ?_
  rw [Nat.pow_mul]
  exact Nat.le_trans (Nat.pow_le_pow_left (by decide) _) h.leading

/-- Between the bounds of the plain layout digits are written around a point. -/
theorem Digits.Spells.write_positional {d : Digits} {bits : Nat} (h : d.Spells bits)
    (hlow : -4 < d.point) (hhigh : d.point ≤ 16) :
    ∃ whole places, plainLayout.write d = whole ++ '.' :: places ∧
      Positional bits whole places := by
  have hsize := h.length_le_log2
  have hdigits := h.digits
  have hpos := h.value_pos
  obtain ⟨e, k, hpoint, hnearest⟩ := h.nearest
  have hne : d.digits ≠ [] := by
    intro hnil
    rw [hnil] at hpos
    exact absurd hpos (by decide)
  have hlen : 0 < d.digits.length := List.length_pos_iff.2 hne
  unfold Layout.write
  dsimp only
  rw [if_pos ⟨hlow, hhigh⟩]
  -- Where the digits reach behind the point, they are all the digits of the decimal.
  have hreads {f : Nat} (hk : k = f + e) (hf : f ≤ d.digits.length + 3) (negative : Bool) :
      ofDecimal negative (digitsValue d.digits) (-(f : Int)) = ofMagnitudeBits negative bits := by
    rw [ofDecimal_neg hpos (by omega), ← hnearest, hk, Nat.pow_add,
      nearestBits_mul_right _ _ (Nat.pow_pos (by decide))]
  split
  · next hsmall =>
    obtain ⟨j, hj⟩ : ∃ j : Nat, j = (-d.point).toNat := ⟨_, rfl⟩
    rw [← hj]
    refine ⟨['0'], List.replicate j '0' ++ d.digits, rfl, by simp, by simp [hne], ?_, ?_⟩
    · intro c hc
      rcases List.mem_append.1 hc with hmem | hmem
      · rw [List.mem_singleton.1 hmem]
        decide
      rcases List.mem_append.1 hmem with hmem | hmem
      · rw [List.eq_of_mem_replicate hmem]
        decide
      · exact hdigits c hmem
    · have hvalue : digitsValue (['0'] ++ (List.replicate j '0' ++ d.digits)) =
          digitsValue d.digits := by
        have hzeros : ['0'] ++ List.replicate j '0' = List.replicate (j + 1) '0' := rfl
        rw [← List.append_assoc, hzeros, digitsValue_append, digitsValue_replicate_zero,
          Nat.zero_mul, Nat.zero_add]
      rw [hvalue]
      refine hreads ?_ ?_ <;> rw [List.length_append, List.length_replicate] <;> omega
  split
  · next hlarge hwhole =>
    obtain ⟨j, hj⟩ : ∃ j : Nat, j = d.point.toNat - d.digits.length := ⟨_, rfl⟩
    rw [← hj]
    refine ⟨d.digits ++ List.replicate j '0', ['0'], rfl, by simp [hne], by simp, ?_, ?_⟩
    · intro c hc
      rw [List.append_assoc] at hc
      rcases List.mem_append.1 hc with hmem | hmem
      · exact hdigits c hmem
      · rw [← List.replicate_succ'] at hmem
        rw [List.eq_of_mem_replicate hmem]
        decide
    · have hvalue : digitsValue (d.digits ++ List.replicate j '0' ++ ['0']) =
          digitsValue d.digits * 10 ^ j * 10 := by
        rw [List.append_assoc, ← List.replicate_succ', digitsValue_append,
          digitsValue_replicate_zero, List.length_replicate, Nat.add_zero, Nat.pow_succ,
          Nat.mul_assoc]
      intro negative
      have hpow : 0 < 10 ^ j := Nat.pow_pos (by decide)
      have he : e = j + k := by omega
      rw [hvalue, List.length_singleton, ofDecimal_neg (by positivity) (by omega), ← hnearest, he,
        Nat.pow_add, ← Nat.mul_assoc]
      refine congrArg _ (nearestBits_congr (by decide) (Nat.pow_pos (by decide)) ?_)
      ring
  · next hlarge hwhole =>
    refine ⟨d.digits.take d.point.toNat, d.digits.drop d.point.toNat, rfl, ?_, ?_, ?_, ?_⟩
    · rw [← List.length_pos_iff, List.length_take]
      omega
    · rw [← List.length_pos_iff, List.length_drop]
      omega
    · rwa [List.take_append_drop]
    · rw [List.take_append_drop]
      refine hreads ?_ ?_ <;> rw [List.length_drop] <;> omega

end VisualNovel.Number

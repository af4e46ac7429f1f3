import VisualNovel.Proofs.Number.Bits
import VisualNovel.Number.Shortest

/-!
The nearest double to a quotient depends on the value of the quotient alone, and a double is the
nearest to itself. So a decimal text that was found to read back does read back, whatever power of
ten its digits were counted in.
-/

namespace VisualNovel.Number

theorem roundDiv_mul_right (num den : Nat) {c : Nat} (hc : 0 < c) :
    roundDiv (num * c) (den * c) = roundDiv num den := by
  unfold roundDiv
  simp only [Nat.mul_div_mul_right _ _ hc, Nat.mul_mod_mul_right, ← Nat.mul_assoc,
    Nat.mul_lt_mul_right hc]

theorem roundDiv_one (n : Nat) : roundDiv n 1 = n := by
  simp [roundDiv, Nat.mod_one]

/-- The nearest double depends on the value of the quotient only. -/
theorem nearestBits_mul_right (num den : Nat) {c : Nat} (hc : 0 < c) :
    nearestBits (num * c) (den * c) = nearestBits num den := by
  have hscaled : num * c * unitsPerOne = num * unitsPerOne * c := Nat.mul_right_comm _ _ _
  have hden (k : Nat) : den * c * Nat.pow 2 k = den * Nat.pow 2 k * c := Nat.mul_right_comm _ _ _
  unfold nearestBits
  simp only [hscaled, hden, Nat.mul_div_mul_right _ _ hc, roundDiv_mul_right _ _ hc]

/-- Quotients of the same value have the same nearest double. -/
theorem nearestBits_congr {num den num' den' : Nat} (hden : 0 < den) (hden' : 0 < den')
    (h : num * den' = num' * den) : nearestBits num den = nearestBits num' den' := by
  rw [← nearestBits_mul_right num den hden', h, Nat.mul_comm den, nearestBits_mul_right _ _ hden]

theorem unitsPerOne_pos : 0 < unitsPerOne := by
  unfold unitsPerOne
  generalize 1074 = n
  exact Nat.two_pow_pos n

/-- The grid of a double's size, and its place on that grid, are its bits. -/
theorem grid_add_roundDiv_unitsOfBits (bits : Nat) :
    (Nat.log2 (unitsOfBits bits) - 52) * Nat.pow 2 52 +
      roundDiv (unitsOfBits bits) (Nat.pow 2 (Nat.log2 (unitsOfBits bits) - 52)) = bits := by
  have hlead : Nat.pow 2 52 = 2 ^ 52 := rfl
  unfold unitsOfBits
  dsimp only
  rw [hlead]
  split
  · next hsmall =>
    have hlog : bits.log2 - 52 = 0 := by
      by_cases hzero : bits = 0
      · simp [hzero]
      · have hlt := (Nat.log2_lt hzero).2 hsmall
        omega
    rw [hlog]
    show 0 * _ + roundDiv bits 1 = bits
    rw [roundDiv_one, Nat.zero_mul, Nat.zero_add]
  · next hlarge =>
    obtain ⟨f, hf⟩ : ∃ f, f = bits % 2 ^ 52 := ⟨_, rfl⟩
    obtain ⟨k, hk⟩ : ∃ k, bits / 2 ^ 52 = k + 1 := ⟨bits / 2 ^ 52 - 1, by omega⟩
    have hflt : f < 2 ^ 52 := by omega
    rw [hk, Nat.add_sub_cancel, ← hf]
    have hlog : ((2 ^ 52 + f) * Nat.pow 2 k).log2 = 52 + k := by
      show ((2 ^ 52 + f) * 2 ^ k).log2 = _
      have hpos : 0 < (2 ^ 52 + f) * 2 ^ k := Nat.mul_pos (by omega) (Nat.two_pow_pos k)
      refine (Nat.log2_eq_iff (Nat.pos_iff_ne_zero.1 hpos)).2 ⟨?_, ?_⟩
      · rw [Nat.pow_add]
        exact Nat.mul_le_mul_right _ (by omega)
      · rw [Nat.add_right_comm, Nat.pow_add]
        exact Nat.mul_lt_mul_of_pos_right (by omega) (Nat.two_pow_pos _)
    rw [hlog, Nat.add_sub_cancel_left]
    have hround : roundDiv ((2 ^ 52 + f) * Nat.pow 2 k) (Nat.pow 2 k) = 2 ^ 52 + f := by
      have hcancel := roundDiv_mul_right (2 ^ 52 + f) 1 (c := Nat.pow 2 k) (Nat.two_pow_pos k)
      rwa [Nat.one_mul, roundDiv_one] at hcancel
    rw [hround]
    omega

/-- A double is the nearest to itself. -/
theorem nearestBits_unitsOfBits {bits : Nat} (h : bits < infinityBits) :
    nearestBits (unitsOfBits bits) unitsPerOne = bits := by
  unfold nearestBits
  dsimp only
  rw [Nat.mul_div_cancel _ unitsPerOne_pos, Nat.mul_comm unitsPerOne,
    roundDiv_mul_right _ _ unitsPerOne_pos, grid_add_roundDiv_unitsOfBits]
  exact Nat.min_eq_left (Nat.le_of_lt h)

end VisualNovel.Number

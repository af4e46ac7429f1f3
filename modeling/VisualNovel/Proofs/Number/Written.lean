import VisualNovel.Proofs.Number.Bits
import VisualNovel.Proofs.Number.Elapsing

/-!
Doubles that stand for a decimal number. However many digits it has, what is written down is a
number or an infinity, so it is comparable with zero.
-/

namespace VisualNovel.Number

open Float.Model Float.Model.UnpackedFloat

/-- A double that is a number, infinities included. -/
def IsNumber (x : Float) : Prop := x.toModel.unpack ≠ .notANumber

/-- A number equals itself. -/
theorem IsNumber.beq_self {x : Float} (h : IsNumber x) : x == x := by
  show x.toModel.unpack.compare x.toModel.unpack == some .eq
  rw [compare_self h]
  rfl

/-- Bits whose exponent is not special are those of a number. -/
theorem isNumber_ofBits {bits : UInt64}
    (h : @unpackExponent Format.binary64 bits.toBitVec ≠ -1#_) : IsNumber (Float.ofBits bits) := by
  have hvalid : Format.binary64.Valid bits.toBitVec := ⟨fun hones => absurd hones h⟩
  show UnpackedFloat.unpack Format.binary64
    (UnpackedFloat.pack Format.binary64 (UnpackedFloat.unpack Format.binary64 bits.toBitVec)) ≠ _
  rw [pack_unpack hvalid]
  intro hnan
  have hunpacks := unpacks bits.toBitVec
  rw [hnan] at hunpacks
  cases hunpacks with
  | notANumber hones => exact h hones

theorem isNumber_ofMagnitudeBits (negative : Bool) {bits : Nat} (h : bits ≤ infinityBits) :
    IsNumber (ofMagnitudeBits negative bits) := by
  have hinf : infinityBits = 2047 * 2 ^ 52 := rfl
  rcases Nat.eq_or_lt_of_le h with rfl | hlt
  · cases negative <;> exact fun hnan => by cases hnan
  · refine isNumber_ofBits fun hones => ?_
    have hexponent := congrArg BitVec.toNat hones
    have hall : (-(BitVec.ofNat Format.binary64.exponentBits 1)).toNat = 2047 := rfl
    have hpow : Nat.pow 2 63 = 2 ^ 63 := rfl
    rw [unpackExponent_toNat, hall, UInt64.toNat_toBitVec, UInt64.toNat_ofNat', hpow] at hexponent
    cases negative with
    | false =>
      rw [if_neg Bool.false_ne_true] at hexponent
      omega
    | true =>
      rw [if_pos rfl] at hexponent
      omega

theorem isNumber_nearest (negative : Bool) (num den : Nat) : IsNumber (nearest negative num den) :=
  isNumber_ofMagnitudeBits negative (Nat.min_le_right _ _)

/-- What decimal digits stand for is a number. -/
theorem isNumber_ofDecimal (negative : Bool) (digits : Nat) (exponent : Int) :
    IsNumber (ofDecimal negative digits exponent) := by
  unfold ofDecimal
  dsimp only
  split
  · exact isNumber_ofMagnitudeBits negative (Nat.zero_le _)
  split
  · exact isNumber_ofMagnitudeBits negative (Nat.le_refl _)
  split
  · exact isNumber_ofMagnitudeBits negative (Nat.zero_le _)
  split
  · exact isNumber_nearest _ _ _
  · exact isNumber_nearest _ _ _

/-- A number is not below zero exactly if zero is at most that number. -/
theorem not_lt_zero_iff {x : Float} (h : IsNumber x) : ¬ x < 0 ↔ 0 ≤ x := by
  have hless : x < 0 ↔ Scalar.less x Scalar.zero = true := (decide_eq_true_iff).symm
  have hlessEq : 0 ≤ x ↔ Scalar.lessEq Scalar.zero x = true := (decide_eq_true_iff).symm
  unfold IsNumber at h
  rw [hless, hlessEq, lessEq_zero_iff, less_eq, unpack_zero]
  generalize x.toModel.unpack = u at h
  unfold UnpackedFloat.lt UnpackedFloat.compare
  match u with
  | .notANumber => exact absurd rfl h
  | .infinity .positive | .zero .positive | .zero .negative | .finite .positive _ _ _ =>
    exact ⟨fun _ => True.intro, fun _ => Bool.false_ne_true⟩
  | .infinity .negative | .finite .negative _ _ _ =>
    exact ⟨fun hnot => hnot rfl, False.elim⟩

end VisualNovel.Number

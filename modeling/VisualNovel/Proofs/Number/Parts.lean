import VisualNovel.Data
import VisualNovel.Proofs.Number.ReadBack
import VisualNovel.Proofs.Number.Written

/-!
Doubles by their parts. Doubles are compared and multiplied in their unpacked form, a mantissa and
an exponent; the parts of a double are the sign and the exact value of that form. So two numbers
compare equal exactly if their parts have the same value, which makes it an equivalence.
-/

namespace VisualNovel.Number

open Float.Model Float.Model.UnpackedFloat

/-! ### The parts of the unpacked form -/

/-- Whether a sign is the one of numbers below zero. -/
def isNegative : Sign → Bool
  | .negative => true
  | .positive => false

/-- The parts of an unpacked number. -/
def partsOf : UnpackedFloat → Parts
  | .notANumber => .nan
  | .infinity s => .infinite (isNegative s)
  | .zero s => .finite (isNegative s) 0
  | .finite s m e _ => .finite (isNegative s) (m * 2 ^ (e + 1074).toNat)

theorem isNegative_unpackSign (b : BitVec Format.binary64.numBits) :
    isNegative (Sign.ofBitVec (unpackSign b)) = decide (2 ^ 63 ≤ b.toNat) := by
  have hlt : b.toNat < 2 ^ 64 := b.isLt
  have hbit : (unpackSign b).toNat = b.toNat / 2 ^ 63 % 2 := by
    delta unpackSign
    simp [BitVec.extractLsb, Nat.shiftRight_eq_div_pow]
  have hsign (v : BitVec 1) : isNegative (Sign.ofBitVec v) = decide (v.toNat = 1) := by
    revert v
    decide
  rw [hsign, hbit]
  exact decide_eq_decide.2 (by omega)

/-- The magnitude bits of a number are its exponent and its mantissa. -/
theorem magnitude_eq (b : BitVec Format.binary64.numBits) :
    b.toNat % 2 ^ 63 = (unpackExponent b).toNat * 2 ^ 52 + (unpackMantissa b).toNat := by
  have hmantissa : (unpackMantissa b).toNat = b.toNat % 2 ^ 52 := by
    simp [unpackMantissa, BitVec.extractLsb]
  rw [unpackExponent_toNat, hmantissa]
  omega

theorem unitsOfBits_of_lt {m : Nat} (h : m < 2 ^ 52) : unitsOfBits m = m := if_pos h

theorem unitsOfBits_normal {k m : Nat} (hk : 0 < k) (hm : m < 2 ^ 52) :
    unitsOfBits (k * 2 ^ 52 + m) = (2 ^ 52 + m) * 2 ^ (k - 1) := by
  have hlarge : ¬ k * 2 ^ 52 + m < Nat.pow 2 52 := by
    show ¬ _ < 2 ^ 52
    omega
  unfold unitsOfBits
  dsimp only
  rw [if_neg hlarge]
  show (2 ^ 52 + (k * 2 ^ 52 + m) % 2 ^ 52) * 2 ^ ((k * 2 ^ 52 + m) / 2 ^ 52 - 1) = _
  rw [show (k * 2 ^ 52 + m) % 2 ^ 52 = m by omega, show (k * 2 ^ 52 + m) / 2 ^ 52 = k by omega]

/-- The parts of a double are those of its unpacked form. -/
theorem parts_eq (x : Float) : parts x = partsOf x.toModel.unpack := by
  have hinf : infinityBits = 2047 * 2 ^ 52 := rfl
  have hbits (b : BitVec Format.binary64.numBits) :
      (if b.toNat % 2 ^ 63 < infinityBits then
        Parts.finite (decide (2 ^ 63 ≤ b.toNat)) (unitsOfBits (b.toNat % 2 ^ 63))
      else if b.toNat % 2 ^ 63 = infinityBits then .infinite (decide (2 ^ 63 ≤ b.toNat)) else .nan) =
      partsOf (UnpackedFloat.unpack Format.binary64 b) := by
    have hexponent : (unpackExponent b).toNat < 2 ^ 11 := (unpackExponent b).isLt
    have hmantissa : (unpackMantissa b).toNat < 2 ^ 52 := (unpackMantissa b).isLt
    rw [← isNegative_unpackSign, magnitude_eq]
    unfold UnpackedFloat.unpack
    dsimp only
    by_cases hones : unpackExponent b = -1#_
    · have hall : (unpackExponent b).toNat = 2047 := congrArg BitVec.toNat hones
      rw [if_pos hones, hall, if_neg (by omega)]
      by_cases hzero : unpackMantissa b = 0#_
      · have hnone : (unpackMantissa b).toNat = 0 := congrArg BitVec.toNat hzero
        rw [if_pos hzero, hnone]
        exact if_pos hinf.symm
      · have hsome : (unpackMantissa b).toNat ≠ 0 := fun h => hzero (BitVec.eq_of_toNat_eq h)
        rw [if_neg hzero, if_neg (by omega)]
        rfl
    have hnotall : (unpackExponent b).toNat ≠ 2047 := fun h => hones (BitVec.eq_of_toNat_eq h)
    rw [if_neg hones, if_pos (by omega)]
    by_cases hsubnormal : unpackExponent b = 0#_
    · have hnone : (unpackExponent b).toNat = 0 := congrArg BitVec.toNat hsubnormal
      rw [if_pos hsubnormal, hnone, Nat.zero_mul, Nat.zero_add, unitsOfBits_of_lt hmantissa]
      by_cases hzero : unpackMantissa b = 0#_
      · rw [dif_pos hzero, hzero]
        rfl
      · rw [dif_neg hzero]
        exact congrArg _ (Nat.mul_one _).symm
    · have hsome : (unpackExponent b).toNat ≠ 0 := fun h => hsubnormal (BitVec.eq_of_toNat_eq h)
      rw [if_neg hsubnormal, unitsOfBits_normal (by omega) hmantissa, ← toNat_lead_append]
      refine congrArg (fun k => Parts.finite _ (_ * 2 ^ k)) ?_
      show _ = ((unpackExponent b).toNat - 1075 + 1074 : Int).toNat
      omega
  exact hbits x.toBits.toBitVec

/-! ### Comparing -/

/-- Numbers of the same value; the two zeros are. -/
def Parts.Same : Parts → Parts → Prop
  | .infinite s, .infinite s' => s = s'
  | .finite s u, .finite s' u' => u = u' ∧ (u = 0 ∨ s = s')
  | _, _ => False

theorem Parts.Same.symm {p q : Parts} (h : p.Same q) : q.Same p := by
  cases p <;> cases q <;> simp only [Parts.Same] at h ⊢ <;> grind

theorem Parts.Same.trans {p q r : Parts} (h : p.Same q) (h' : q.Same r) : p.Same r := by
  cases p <;> cases q <;> cases r <;> simp only [Parts.Same] at h h' ⊢ <;> grind

/-- Canonical numbers of the same value are the same. -/
theorem canonical_injective {m m' : Nat} {e e' : Int} (hm : Canonical m e) (hm' : Canonical m' e')
    (h : m * 2 ^ (e + 1074).toNat = m' * 2 ^ (e' + 1074).toNat) : m = m' ∧ e = e' := by
  obtain ⟨hpos, hgrid⟩ := hm
  obtain ⟨hpos', hgrid'⟩ := hm'
  have hlog := congrArg Nat.log2 h
  rw [log2_mul_two_pow hpos, log2_mul_two_pow hpos'] at hlog
  unfold grid at hgrid hgrid'
  obtain rfl : e = e' := by omega
  exact ⟨Nat.eq_of_mul_eq_mul_right (Nat.two_pow_pos _) h, rfl⟩

/-- The parts of a canonical number say all of it. -/
theorem partsOf_injective {u v : UnpackedFloat} (hu : IsCanonical u) (hv : IsCanonical v)
    (h : partsOf u = partsOf v) : u = v := by
  have hsign {s s' : Sign} (h : isNegative s = isNegative s') : s = s' := by
    cases s <;> cases s' <;> first | rfl | cases h
  have hunits {m : Nat} (hpos : 0 < m) (e : Int) : 0 < m * 2 ^ (e + 1074).toNat :=
    Nat.mul_pos hpos (Nat.two_pow_pos _)
  match u, v, hu, hv with
  | .notANumber, .notANumber, _, _ => rfl
  | .infinity s, .infinity s', _, _ => rw [hsign (Parts.infinite.inj h)]
  | .zero s, .zero s', _, _ => rw [hsign (Parts.finite.inj h).1]
  | .zero s, .finite s' m e hpos, _, _ => exact absurd (Parts.finite.inj h).2 (hunits hpos e).ne
  | .finite s m e hpos, .zero s', _, _ => exact absurd (Parts.finite.inj h).2 (hunits hpos e).ne'
  | .finite s m e hpos, .finite s' m' e' hpos', hm, hm' =>
    obtain ⟨hsigns, hvalues⟩ := Parts.finite.inj h
    obtain rfl := hsign hsigns
    obtain ⟨rfl, rfl⟩ := canonical_injective hm hm' hvalues
    rfl

/-- Canonical numbers are compared by exponent and mantissa, and by their values all the same. -/
theorem compare_eq_iff_of_canonical {m m' : Nat} {e e' : Int} (hm : Canonical m e)
    (hm' : Canonical m' e') :
    (compare e e').then (compare m m') = .eq ↔
      m * 2 ^ (e + 1074).toNat = m' * 2 ^ (e' + 1074).toNat := by
  rw [Ordering.then_eq_eq, Int.compare_eq_eq, Nat.compare_eq_eq]
  refine ⟨fun ⟨he, hmantissa⟩ => by rw [he, hmantissa], fun h => ?_⟩
  exact (canonical_injective hm hm' h).symm

/-- Two doubles compare equal exactly if they have the same value. -/
theorem beq_iff_same {x y : Float} : (x == y) = true ↔ (parts x).Same (parts y) := by
  have hx : IsCanonical x.toModel.unpack := unpack_canonical _
  have hy : IsCanonical y.toModel.unpack := unpack_canonical _
  show (x.toModel.unpack.compare y.toModel.unpack == some .eq) = true ↔ _
  rw [parts_eq, parts_eq, beq_iff_eq]
  generalize x.toModel.unpack = u at *
  generalize y.toModel.unpack = v at *
  unfold UnpackedFloat.compare
  have hunits {m : Nat} (hpos : 0 < m) (e : Int) : 0 < m * 2 ^ (e + 1074).toNat :=
    Nat.mul_pos hpos (Nat.two_pow_pos _)
  cases u with
  | notANumber => cases v <;> dsimp only [partsOf, Parts.Same] <;> simp
  | infinity s =>
    cases v with
    | infinity s' =>
      cases s <;> cases s' <;> dsimp only [partsOf, Parts.Same, isNegative] <;> simp <;> rfl
    | _ => cases s <;> dsimp only [partsOf, Parts.Same] <;> simp
  | zero s =>
    cases v with
    | infinity s' => cases s' <;> dsimp only [partsOf, Parts.Same] <;> simp
    | finite s' m e hpos =>
      have := hunits hpos e
      cases s' <;> dsimp only [partsOf, Parts.Same] <;> simp <;> omega
    | _ => dsimp only [partsOf, Parts.Same]; simp
  | finite s m e hpos =>
    have := hunits hpos e
    cases v with
    | infinity s' => cases s' <;> dsimp only [partsOf, Parts.Same] <;> simp
    | zero s' => cases s <;> dsimp only [partsOf, Parts.Same] <;> simp <;> omega
    | notANumber => cases s <;> dsimp only [partsOf, Parts.Same] <;> simp
    | finite s' m' e' _ =>
      have hsame := compare_eq_iff_of_canonical hx hy
      cases s <;> cases s' <;> dsimp only [partsOf, Parts.Same] <;>
        simp [isNegative, hsame] <;> omega

/-- A double is not at most zero exactly if it is positive, infinite or no number. -/
theorem not_le_zero_iff {x : Float} :
    ¬ x ≤ 0 ↔ parts x = .nan ∨ parts x = .infinite false ∨
      ∃ units, 0 < units ∧ parts x = .finite false units := by
  have hlessEq : x ≤ 0 ↔ Scalar.lessEq x Scalar.zero = true := (decide_eq_true_iff).symm
  rw [hlessEq, lessEq_eq, unpack_zero, parts_eq]
  generalize x.toModel.unpack = u
  match u with
  | .notANumber => exact ⟨fun _ => .inl rfl, fun _ => Bool.false_ne_true⟩
  | .infinity .positive => exact ⟨fun _ => .inr (.inl rfl), fun _ => Bool.false_ne_true⟩
  | .finite .positive m e hpos =>
    refine ⟨fun _ => .inr (.inr ⟨_, ?_, rfl⟩), fun _ => Bool.false_ne_true⟩
    exact Nat.mul_pos hpos (Nat.two_pow_pos _)
  | .infinity .negative | .finite .negative _ _ _ | .zero s =>
    dsimp only [UnpackedFloat.le, UnpackedFloat.compare, partsOf, isNegative]
    simp

theorem isInf_iff {x : Float} : x.isInf = true ↔ ∃ negative, parts x = .infinite negative := by
  show x.toModel.unpack.isInf = true ↔ _
  rw [parts_eq]
  generalize x.toModel.unpack = u
  cases u <;> dsimp only [UnpackedFloat.isInf, partsOf] <;> simp

/-! ### Numbers -/

/-- The parts of a number, whole or not. -/
def numberParts : Int ⊕ Float → Parts
  | .inl n => .finite (n < 0) (n.natAbs * unitsPerOne)
  | .inr x => parts x

theorem isEqualTo_iff {x : Float} {n : Int} :
    isEqualTo x n = true ↔ (parts x).Same (numberParts (.inl n)) := by
  unfold isEqualTo numberParts
  cases parts x <;> simp [Parts.Same]

/-- Two numbers are found the same exactly if they have the same value. -/
theorem sameNumber_iff {a b : Int ⊕ Float} :
    Data.sameNumber a b = true ↔ (numberParts a).Same (numberParts b) := by
  have hwhole (m n : Int) : m = n ↔ (numberParts (.inl m)).Same (numberParts (.inl n)) := by
    have hpos := unitsPerOne_pos
    simp only [numberParts, Parts.Same, Nat.mul_eq_zero, decide_eq_decide,
      Nat.mul_left_inj (Nat.pos_iff_ne_zero.1 hpos)]
    omega
  cases a with
  | inl m =>
    cases b with
    | inl n => exact beq_iff_eq.trans (hwhole m n)
    | inr y => exact isEqualTo_iff.trans ⟨Parts.Same.symm, Parts.Same.symm⟩
  | inr x =>
    cases b with
    | inl n => exact isEqualTo_iff
    | inr y => exact beq_iff_same

end VisualNovel.Number

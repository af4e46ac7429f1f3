import Mathlib.Algebra.Group.Nat.Defs
import VisualNovel.Number.Binary64

/-!
Rounding to doubles never goes below a double: what is at least some double before it is rounded is
so afterwards. A positive finite double is a mantissa and an exponent on the grid of its size;
doubles on a coarser grid are larger, and on the same grid the mantissas decide.
-/

namespace VisualNovel.Number

open Float.Model Float.Model.UnpackedFloat

/-- The exponent of the grid on which `m * 2 ^ e` lies. -/
def grid (m : Nat) (e : Int) : Int := max ((m.log2 : Int) - 52 + e) (-1074)

theorem targetExponent_totalExponent (m : Nat) (e : Int) :
    Format.binary64.targetExponent (totalExponent m e) = grid m e := by
  have hbits : (Format.binary64.mantissaBits : Int) = 53 := rfl
  have hmin : Format.binary64.minExponent = -1074 := rfl
  unfold Format.targetExponent totalExponent grid
  rw [hbits, hmin]
  congr 1
  omega

/-- A mantissa and an exponent on the grid of their size. -/
def Canonical (m : Nat) (e : Int) : Prop := 0 < m ∧ e = grid m e

/-- The value `m * 2 ^ e` is at most `m' * 2 ^ e'`, in whole numbers. -/
def ValueLe (m : Nat) (e : Int) (m' : Nat) (e' : Int) : Prop :=
  m * 2 ^ (e - e').toNat ≤ m' * 2 ^ (e' - e).toNat

/-- The order of canonical doubles: first by exponent, then by mantissa. -/
def Below (m : Nat) (e : Int) (m' : Nat) (e' : Int) : Prop := e < e' ∨ e = e' ∧ m ≤ m'

theorem pow_log2_le {m : Nat} (h : 0 < m) : 2 ^ m.log2 ≤ m :=
  Nat.log2_self_le (Nat.pos_iff_ne_zero.1 h)

/-- The size of a value orders values. -/
theorem ValueLe.log2_add_le {m m' : Nat} {e e' : Int} (hm : 0 < m) (h : ValueLe m e m' e') :
    (m.log2 : Int) + e ≤ m'.log2 + e' := by
  have hlow : 2 ^ (m.log2 + (e - e').toNat) ≤ m * 2 ^ (e - e').toNat := by
    rw [Nat.pow_add]
    exact Nat.mul_le_mul_right _ (pow_log2_le hm)
  have hhigh : m' * 2 ^ (e' - e).toNat < 2 ^ (m'.log2 + 1 + (e' - e).toNat) := by
    rw [Nat.pow_add]
    exact Nat.mul_lt_mul_of_pos_right Nat.lt_log2_self (Nat.two_pow_pos _)
  have hpow := Nat.lt_of_le_of_lt hlow (Nat.lt_of_le_of_lt h hhigh)
  have hlt := (Nat.pow_lt_pow_iff_right (by decide)).1 hpow
  omega

/-! ### One rounding -/

theorem mantissa_shiftRight (em : ExtendedMantissa) (k : Nat) :
    (em >>> k).mantissa = em.mantissa / 2 ^ k := by
  induction k with
  | zero => exact (Nat.div_one _).symm
  | succ k ih =>
    show (em >>> k).mantissa / 2 = _
    rw [ih, Nat.div_div_eq_div_mul, Nat.pow_succ]

theorem roundedMantissa_bounds (em : ExtendedMantissa) :
    em.mantissa ≤ em.roundedMantissa ∧ em.roundedMantissa ≤ em.mantissa + 1 := by
  obtain ⟨m, roundBit, stickyBit⟩ := em
  cases roundBit <;> cases stickyBit <;>
    simp only [ExtendedMantissa.roundedMantissa, ExtendedMantissa.accuracy,
      Accuracy.roundToNearestEven] <;> omega

theorem mantissa_ofMantissaAndAccuracy (m : Nat) (a : Accuracy) :
    (ExtendedMantissa.ofMantissaAndAccuracy m a).mantissa = m := by
  cases a with
  | exact => rfl
  | inexact o => cases o <;> rfl

/-- A mantissa shifted right by the distance of its exponent from its grid. -/
def shifted (m : Nat) (e : Int) : Nat := m / 2 ^ (grid m e - e).toNat

/-- An exponent raised to the grid, if that is above it. -/
def raised (m : Nat) (e : Int) : Int := e + (grid m e - e).toNat

theorem mantissa_shiftToTargetExponent (m : Nat) (e : Int) (a : Accuracy) :
    (shiftToTargetExponent Format.binary64 m e a).1.mantissa = shifted m e := by
  unfold shiftToTargetExponent shiftToExponent
  dsimp only
  rw [mantissa_shiftRight, mantissa_ofMantissaAndAccuracy, targetExponent_totalExponent]
  rfl

theorem exponent_shiftToTargetExponent (m : Nat) (e : Int) (a : Accuracy) :
    (shiftToTargetExponent Format.binary64 m e a).2 = raised m e := by
  unfold shiftToTargetExponent shiftToExponent
  dsimp only
  rw [targetExponent_totalExponent]
  rfl

theorem finite_congr (s : Sign) {m m' : Nat} {e e' : Int} {hpos : 0 < m} {hpos' : 0 < m'}
    (hm : m = m') (he : e = e') :
    UnpackedFloat.finite s m e hpos = .finite s m' e' hpos' := by
  subst hm he
  rfl

theorem zero_or_finite_congr (s : Sign) {m m' : Nat} {e e' : Int} (hm : m = m') (he : e = e') :
    (if h : m = 0 then UnpackedFloat.zero s else .finite s m e (Nat.pos_of_ne_zero h)) =
      if h : m' = 0 then .zero s else .finite s m' e' (Nat.pos_of_ne_zero h) := by
  subst hm he
  rfl

theorem roundWithAccuracy_of_rounded {r : Nat} (s : Sign) {m : Nat} {e : Int} {a : Accuracy}
    (hr : (shiftToTargetExponent Format.binary64 m e a).1.roundedMantissa = r) :
    roundWithAccuracy Format.binary64 s m e a =
      if h : shifted r (raised m e) = 0 then .zero s
      else .finite s (shifted r (raised m e)) (raised r (raised m e)) (Nat.pos_of_ne_zero h) := by
  have hexponent := exponent_shiftToTargetExponent m e a
  have hmantissa := mantissa_shiftToTargetExponent r (raised m e) .exact
  have hraised := exponent_shiftToTargetExponent r (raised m e) .exact
  rw [← hexponent, ← hr] at hmantissa hraised
  rw [← hexponent, ← hr]
  exact zero_or_finite_congr s hmantissa hraised

/-- Rounding is two shifts with a mantissa between them that is rounded down or up by one. -/
theorem roundWithAccuracy_eq (s : Sign) (m : Nat) (e : Int) (a : Accuracy) :
    ∃ r, shifted m e ≤ r ∧ r ≤ shifted m e + 1 ∧
      roundWithAccuracy Format.binary64 s m e a =
        if h : shifted r (raised m e) = 0 then .zero s
        else .finite s (shifted r (raised m e)) (raised r (raised m e)) (Nat.pos_of_ne_zero h) := by
  have hbounds := roundedMantissa_bounds (shiftToTargetExponent Format.binary64 m e a).1
  rw [mantissa_shiftToTargetExponent] at hbounds
  exact ⟨_, hbounds.1, hbounds.2, roundWithAccuracy_of_rounded s rfl⟩

/-- A shift to the grid leaves something of a number that is not below the least double. -/
theorem shifted_pos {m : Nat} {e : Int} (hm : 0 < m) (h : -1074 ≤ e ∨ 0 ≤ (m.log2 : Int) + e + 1074) :
    0 < shifted m e := by
  have hle : (grid m e - e).toNat ≤ m.log2 := by
    unfold grid
    omega
  exact Nat.div_pos (Nat.le_trans (Nat.pow_le_pow_right (by decide) hle) (pow_log2_le hm))
    (Nat.two_pow_pos _)

/-- What is at least a double before it is rounded is so afterwards. -/
theorem below_of_valueLe {m m' r : Nat} {e e' : Int} (hm : Canonical m e) (hm' : 0 < m')
    (h : ValueLe m e m' e') (hr : shifted m' e' ≤ r) :
    0 < shifted r (raised m' e') ∧
      Below m e (shifted r (raised m' e')) (raised r (raised m' e')) := by
  obtain ⟨hpos, hgrid⟩ := hm
  have hsize := h.log2_add_le hpos
  have hmin : -1074 ≤ e := by
    rw [hgrid]
    exact Int.le_max_right _ _
  have hraised : e ≤ raised m' e' := by
    unfold raised
    unfold grid at hgrid ⊢
    omega
  have hshifted : 0 < shifted m' e' := shifted_pos hm' (.inr (by omega))
  have hrpos : 0 < r := Nat.lt_of_lt_of_le hshifted hr
  refine ⟨shifted_pos hrpos (.inl (by omega)), ?_⟩
  by_cases hup : (grid r (raised m' e') - raised m' e').toNat = 0
  · have hsame : raised r (raised m' e') = raised m' e' := by
      unfold raised at hup ⊢
      omega
    have hwhole : shifted r (raised m' e') = r := by
      unfold shifted
      rw [hup, Nat.pow_zero, Nat.div_one]
    rw [hsame, hwhole]
    by_cases heq : e = raised m' e'
    · refine .inr ⟨heq, Nat.le_trans ?_ hr⟩
      have hshift : (e - e').toNat = (grid m' e' - e').toNat ∧ (e' - e).toNat = 0 := by
        unfold raised at heq
        omega
      unfold ValueLe at h
      rw [hshift.1, hshift.2, Nat.pow_zero, Nat.mul_one] at h
      exact (Nat.le_div_iff_mul_le (Nat.two_pow_pos _)).2 h
    · exact .inl (by omega)
  · refine .inl ?_
    show e < raised m' e' + (grid r (raised m' e') - raised m' e').toNat
    omega

/-- What was shifted to its grid takes at most 53 bits, and all of them above the lowest grid. -/
theorem shifted_bounds {m : Nat} {e : Int} (hm : 0 < m) (he : e ≤ grid m e) :
    shifted m e < 2 ^ 53 ∧ (grid m e ≠ -1074 → 2 ^ 52 ≤ shifted m e) := by
  unfold shifted
  constructor
  · rw [Nat.div_lt_iff_lt_mul (Nat.two_pow_pos _), ← Nat.pow_add]
    refine Nat.lt_of_lt_of_le Nat.lt_log2_self (Nat.pow_le_pow_right (by decide) ?_)
    unfold grid
    omega
  · intro habove
    rw [Nat.le_div_iff_mul_le (Nat.two_pow_pos _), ← Nat.pow_add]
    refine Nat.le_trans (Nat.pow_le_pow_right (by decide) ?_) (pow_log2_le hm)
    unfold grid at habove he ⊢
    omega

/-- A mantissa that was rounded up to 54 bits is halved. -/
theorem shift_of_carry {g : Int} (hg : -1074 ≤ g) :
    shifted (2 ^ 53) g = 2 ^ 52 ∧ raised (2 ^ 53) g = g + 1 := by
  have hup : (grid (2 ^ 53) g - g).toNat = 1 := by
    unfold grid
    rw [Nat.log2_two_pow]
    omega
  unfold raised shifted
  rw [hup]
  exact ⟨by decide, rfl⟩

/-- A mantissa of at most 53 bits stays as it is, on the lowest grid or above it. -/
theorem shift_of_fits {r : Nat} {g : Int} (hlog : r.log2 ≤ 52) (hg : -1074 ≤ g) :
    shifted r g = r ∧ raised r g = g := by
  have hstay : (grid r g - g).toNat = 0 := by
    unfold grid
    omega
  unfold raised shifted
  rw [hstay, Nat.pow_zero, Nat.div_one]
  exact ⟨rfl, Int.add_zero g⟩

/-- Rounding ends on a grid, if it begins on or below one. -/
theorem canonical_of_le_grid {m r : Nat} {e : Int} (hm : 0 < m) (he : e ≤ grid m e)
    (hlow : shifted m e ≤ r) (hhigh : r ≤ shifted m e + 1) (hpos : 0 < shifted r (raised m e)) :
    Canonical (shifted r (raised m e)) (raised r (raised m e)) := by
  refine ⟨hpos, ?_⟩
  obtain ⟨hbits, hnormal⟩ := shifted_bounds hm he
  have hraised : raised m e = grid m e := by
    unfold raised
    omega
  have hgrid : -1074 ≤ grid m e := Int.le_max_right _ _
  rw [hraised] at hpos ⊢
  generalize grid m e = g at *
  have hrpos : r ≠ 0 := by
    rintro rfl
    simp [shifted] at hpos
  by_cases hcarry : r = 2 ^ 53
  · obtain ⟨hshifted, hraised'⟩ := shift_of_carry hgrid
    rw [hcarry, hshifted, hraised']
    unfold grid
    rw [Nat.log2_two_pow]
    omega
  · have hlog : r.log2 < 53 := (Nat.log2_lt hrpos).2 (by omega)
    obtain ⟨hshifted, hraised'⟩ := shift_of_fits (Nat.le_of_lt_succ hlog) hgrid
    rw [hshifted, hraised']
    unfold grid
    by_cases hleast : g = -1074
    · omega
    · have hnormal' : 52 ≤ r.log2 := (Nat.le_log2 hrpos).2 (Nat.le_trans (hnormal hleast) hlow)
      omega

/-- Rounding a number that is at least some double gives a double that is. -/
theorem roundWithAccuracy_ge (s : Sign) {m m' : Nat} {e e' : Int} (a : Accuracy)
    (hm : Canonical m e) (hm' : 0 < m') (h : ValueLe m e m' e') (he : e' ≤ grid m' e') :
    ∃ f g hf, roundWithAccuracy Format.binary64 s m' e' a = .finite s f g hf ∧
      Canonical f g ∧ Below m e f g := by
  obtain ⟨r, hlow, hhigh, heq⟩ := roundWithAccuracy_eq s m' e' a
  obtain ⟨hpos, hbelow⟩ := below_of_valueLe hm hm' h hlow
  rw [dif_neg (Nat.pos_iff_ne_zero.1 hpos)] at heq
  exact ⟨_, _, hpos, heq, canonical_of_le_grid hm' he hlow hhigh hpos, hbelow⟩

end VisualNovel.Number

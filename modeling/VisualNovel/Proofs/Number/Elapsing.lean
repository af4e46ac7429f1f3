import VisualNovel.Proofs.Number.Unpacked
import VisualNovel.Stage.Scalar

/-!
Time on stage, in doubles. Adding time never makes a time smaller than what was added, and a time
that is at least a positive duration is no fraction of it below one. Both hold although sums and
quotients are rounded, and also where they become infinite.
-/

namespace VisualNovel.Number

open Float.Model Float.Model.UnpackedFloat

/-! ### Values -/

/-- Values can be compared over any exponent below both. -/
theorem valueLe_iff {m m' : Nat} {e e' c : Int} (h : c ≤ e) (h' : c ≤ e') :
    ValueLe m e m' e' ↔ m * 2 ^ (e - c).toNat ≤ m' * 2 ^ (e' - c).toNat := by
  obtain ⟨k, hk⟩ : ∃ k, k = (min e e' - c).toNat := ⟨_, rfl⟩
  have hleft : (e - c).toNat = (e - e').toNat + k := by omega
  have hright : (e' - c).toNat = (e' - e).toNat + k := by omega
  rw [hleft, hright, Nat.pow_add, Nat.pow_add, ← Nat.mul_assoc, ← Nat.mul_assoc]
  exact (Nat.mul_le_mul_right_iff (Nat.two_pow_pos k)).symm

/-- The order of canonical numbers is that of their values. -/
theorem Below.valueLe {m m' : Nat} {e e' : Int} (hm : Canonical m e) (hm' : Canonical m' e')
    (h : Below m e m' e') : ValueLe m e m' e' := by
  obtain ⟨hpos, hgrid⟩ := hm
  obtain ⟨hpos', hgrid'⟩ := hm'
  rcases h with hlt | ⟨rfl, hle⟩
  · have hlog : m.log2 + 1 ≤ m'.log2 + (e' - e).toNat := by
      unfold grid at hgrid hgrid'
      omega
    have hzero : (e - e').toNat = 0 := by omega
    unfold ValueLe
    rw [hzero, Nat.pow_zero, Nat.mul_one]
    calc m ≤ 2 ^ (m.log2 + 1) := Nat.le_of_lt Nat.lt_log2_self
      _ ≤ 2 ^ (m'.log2 + (e' - e).toNat) := Nat.pow_le_pow_right (by decide) hlog
      _ = 2 ^ m'.log2 * 2 ^ (e' - e).toNat := Nat.pow_add _ _ _
      _ ≤ m' * 2 ^ (e' - e).toNat := Nat.mul_le_mul_right _ (pow_log2_le hpos')
  · exact Nat.mul_le_mul_right _ hle

theorem log2_mul_two_pow {m : Nat} (hm : 0 < m) (k : Nat) : (m * 2 ^ k).log2 = m.log2 + k := by
  have hne : m * 2 ^ k ≠ 0 := Nat.pos_iff_ne_zero.1 (Nat.mul_pos hm (Nat.two_pow_pos k))
  refine (Nat.log2_eq_iff hne).2 ⟨?_, ?_⟩
  · rw [Nat.pow_add]
    exact Nat.mul_le_mul_right _ (pow_log2_le hm)
  · rw [show m.log2 + k + 1 = m.log2 + 1 + k by omega, Nat.pow_add]
    exact Nat.mul_lt_mul_of_pos_right Nat.lt_log2_self (Nat.two_pow_pos k)

/-! ### Numbers that are at least a double -/

/-- A number, maybe infinite, that is at least a positive double. -/
def AtLeast (m : Nat) (e : Int) (u : UnpackedFloat) : Prop :=
  u = .infinity .positive ∨
    ∃ f g hf, u = .finite .positive f g hf ∧ Canonical f g ∧ Below m e f g

/-- Packing keeps a number at least as large as a double. -/
theorem AtLeast.unpack_pack {m : Nat} {e : Int} {u : UnpackedFloat} (h : AtLeast m e u) :
    AtLeast m e (Float.Model.pack u).unpack := by
  rcases h with rfl | ⟨f, g, hf, rfl, hcanonical, hbelow⟩
  · exact .inl rfl
  · rcases unpack_pack_finite .positive hf hcanonical with hsame | ⟨-, hinfinite⟩
    · exact .inr ⟨f, g, hf, hsame, hcanonical, hbelow⟩
    · exact .inl hinfinite

/-- Rounding, also of a number that is not yet on its grid. -/
theorem round_atLeast {m m' : Nat} {e e' : Int} (hm : Canonical m e) (hm' : 0 < m')
    (h : ValueLe m e m' e') : AtLeast m e (UnpackedFloat.round Format.binary64 .positive m' e') := by
  unfold UnpackedFloat.round decreaseExponent
  dsimp only
  rw [targetExponent_totalExponent, Nat.shiftLeft_eq]
  generalize hk : (e' - grid m' e').toNat = k
  have hgrid : grid (m' * 2 ^ k) (e' - k) = grid m' e' := by
    unfold grid
    rw [log2_mul_two_pow hm']
    omega
  have hvalue : ValueLe m e (m' * 2 ^ k) (e' - k) := by
    have hc := (valueLe_iff (c := min e (e' - k)) (by omega) (by omega)).1 h
    rw [valueLe_iff (c := min e (e' - k)) (by omega) (by omega), Nat.mul_assoc, ← Nat.pow_add]
    rwa [show k + (e' - k - min e (e' - k)).toNat = (e' - min e (e' - k)).toNat by omega]
  obtain ⟨f, g, hf, heq, hcanonical, hbelow⟩ := roundWithAccuracy_ge .positive .exact hm
    (Nat.mul_pos hm' (Nat.two_pow_pos k)) hvalue (by omega)
  exact .inr ⟨f, g, hf, heq, hcanonical, hbelow⟩

/-- Neither a negative number nor no number at all. -/
def NonNeg : UnpackedFloat → Prop
  | .infinity .positive | .zero _ | .finite .positive _ _ _ => True
  | _ => False

theorem add_infinity {u : UnpackedFloat} (hu : NonNeg u) :
    UnpackedFloat.add Format.binary64 u (.infinity .positive) = .infinity .positive := by
  match u, hu with
  | .infinity .positive, _ => rfl
  | .zero _, _ => rfl
  | .finite .positive _ _ _, _ => rfl

/-- A sum is at least each number in it, if the other is not negative. -/
theorem add_atLeast {m : Nat} {e : Int} {u v : UnpackedFloat} (hm : Canonical m e) (hu : NonNeg u)
    (hv : AtLeast m e v) : AtLeast m e (UnpackedFloat.add Format.binary64 u v) := by
  rcases hv with rfl | ⟨f, g, hf, rfl, hcanonical, hbelow⟩
  · exact .inl (add_infinity hu)
  · match u, hu with
    | .infinity .positive, _ => exact .inl rfl
    | .zero _, _ => exact .inr ⟨f, g, hf, rfl, hcanonical, hbelow⟩
    | .finite .positive f' g' hf', _ =>
      unfold UnpackedFloat.add decreaseExponent Sign.apply
      dsimp only
      rw [Nat.shiftLeft_eq, Nat.shiftLeft_eq, ← Int.natCast_add]
      generalize hsum : f' * 2 ^ (g' - min g' g).toNat + f * 2 ^ (g - min g' g).toNat = sum
      have hpos : 0 < f * 2 ^ (g - min g' g).toNat := Nat.mul_pos hf (Nat.two_pow_pos _)
      have hcompare : compare (sum : Int) 0 = .gt := by
        rw [Int.compare_eq_gt]
        omega
      unfold UnpackedFloat.normalize
      rw [hcompare]
      refine round_atLeast hm (by omega) ?_
      rw [Int.toNat_natCast]
      generalize hc : min (min g' g) e = c
      rw [valueLe_iff (c := c) (by omega) (by omega)]
      calc m * 2 ^ (e - c).toNat
          ≤ f * 2 ^ (g - c).toNat :=
            (valueLe_iff (by omega) (by omega)).1 (hbelow.valueLe hm hcanonical)
        _ = f * 2 ^ (g - min g' g).toNat * 2 ^ (min g' g - c).toNat := by
            rw [Nat.mul_assoc, ← Nat.pow_add]
            congr 2
            omega
        _ ≤ sum * 2 ^ (min g' g - c).toNat := Nat.mul_le_mul_right _ (by omega)

/-- The quotient of two numbers on their grids is taken on a grid fine enough for all its bits, and
    it is no less than one if the first number is no less than the second. -/
theorem divCore_spec {m m' : Nat} {e e' : Int} (hm : Canonical m e) (hm' : Canonical m' e')
    (h : ValueLe m e m' e') : ∃ q t a, divCore Format.binary64 m' e' m e = (q, t, a) ∧
      0 < q ∧ ValueLe (2 ^ 52) (-52) q t ∧ t ≤ grid q t := by
  obtain ⟨hpos, -⟩ := hm
  obtain ⟨hpos', -⟩ := hm'
  refine ⟨_, _, _, rfl, ?_⟩
  have hsize := h.log2_add_le hpos
  have htarget : Format.binary64.targetExponent (totalExponent m' e' - totalExponent m e) =
      max ((m'.log2 : Int) + e' - m.log2 - e - 53) (-1074) := by
    have hbits : (Format.binary64.mantissaBits : Int) = 53 := rfl
    have hmin : Format.binary64.minExponent = -1074 := rfl
    unfold Format.targetExponent totalExponent
    rw [hbits, hmin]
    congr 1
    omega
  rw [htarget, Nat.shiftLeft_eq]
  generalize ht : min (e' - e) (max ((m'.log2 : Int) + e' - m.log2 - e - 53) (-1074)) = t
  generalize hs : (e' - e - t).toNat = shift
  -- Above the lowest grid the quotient has all its 53 bits.
  have hfull (habove : -1074 < t) : 2 ^ 52 ≤ m' * 2 ^ shift / m := by
    rw [Nat.le_div_iff_mul_le hpos]
    calc 2 ^ 52 * m
        ≤ 2 ^ 52 * 2 ^ (m.log2 + 1) := Nat.mul_le_mul_left _ (Nat.le_of_lt Nat.lt_log2_self)
      _ = 2 ^ (52 + (m.log2 + 1)) := (Nat.pow_add _ _ _).symm
      _ ≤ 2 ^ (m'.log2 + shift) := Nat.pow_le_pow_right (by decide) (by omega)
      _ = 2 ^ m'.log2 * 2 ^ shift := Nat.pow_add _ _ _
      _ ≤ m' * 2 ^ shift := Nat.mul_le_mul_right _ (pow_log2_le hpos')
  have hone (hneg : t ≤ 0) : 2 ^ (-t).toNat ≤ m' * 2 ^ shift / m := by
    rw [Nat.le_div_iff_mul_le hpos, Nat.mul_comm]
    have hc := (valueLe_iff (c := e + t) (by omega) (by omega)).1 h
    rwa [show (e - (e + t)).toNat = (-t).toNat by omega,
      show (e' - (e + t)).toNat = shift by omega] at hc
  generalize m' * 2 ^ shift / m = q at hfull hone ⊢
  have hqpos : 0 < q := by
    by_cases hneg : t ≤ 0
    · exact Nat.lt_of_lt_of_le (Nat.two_pow_pos _) (hone hneg)
    · exact Nat.lt_of_lt_of_le (by decide) (hfull (by omega))
  refine ⟨hqpos, ?_, ?_⟩
  · by_cases hneg : t ≤ 0
    · generalize hc : min t (-52) = c
      rw [valueLe_iff (c := c) (by omega) (by omega), ← Nat.pow_add]
      calc 2 ^ (52 + (-52 - c).toNat) = 2 ^ (-t).toNat * 2 ^ (t - c).toNat := by
            rw [← Nat.pow_add]
            congr 1
            omega
        _ ≤ q * 2 ^ (t - c).toNat := Nat.mul_le_mul_right _ (hone hneg)
    · unfold ValueLe
      rw [show (-52 - t).toNat = 0 by omega, Nat.pow_zero, Nat.mul_one]
      exact Nat.le_trans (hfull (by omega)) (Nat.le_mul_of_pos_right _ (Nat.two_pow_pos _))
  · by_cases habove : -1074 < t
    · have hlog := (Nat.le_log2 (Nat.pos_iff_ne_zero.1 hqpos)).2 (hfull habove)
      unfold grid
      omega
    · unfold grid
      omega

/-- The double one. -/
theorem canonical_one : Canonical (2 ^ 52) (-52) := ⟨by decide, by decide⟩

/-- A number that is at least a positive double is at least one times it. -/
theorem div_atLeast_one {m : Nat} {e : Int} {u : UnpackedFloat} (hpos : 0 < m)
    (hm : Canonical m e) (hu : AtLeast m e u) :
    AtLeast (2 ^ 52) (-52) (UnpackedFloat.div Format.binary64 u (.finite .positive m e hpos)) := by
  rcases hu with rfl | ⟨f, g, hf, rfl, hcanonical, hbelow⟩
  · exact .inl rfl
  · obtain ⟨q, t, a, hcore, hqpos, hvalue, hgrid⟩ :=
      divCore_spec hm hcanonical (hbelow.valueLe hm hcanonical)
    unfold UnpackedFloat.div
    dsimp only
    rw [hcore]
    obtain ⟨f', g', hf', heq, hcanonical', hbelow'⟩ :=
      roundWithAccuracy_ge .positive a canonical_one hqpos hvalue hgrid
    exact .inr ⟨f', g', hf', heq, hcanonical', hbelow'⟩

/-! ### Doubles -/

theorem lessEq_eq (a b : Float) :
    Scalar.lessEq a b = UnpackedFloat.le a.toModel.unpack b.toModel.unpack := by
  show decide (Float.le a b = true) = _
  unfold Float.le
  rw [Bool.decide_eq_true]
  show decide (Float.Model.le _ _ = true) = _
  rw [Bool.decide_eq_true]
  rfl

theorem less_eq (a b : Float) :
    Scalar.less a b = UnpackedFloat.lt a.toModel.unpack b.toModel.unpack := by
  show decide (Float.lt a b = true) = _
  unfold Float.lt
  rw [Bool.decide_eq_true]
  show decide (Float.Model.lt _ _ = true) = _
  rw [Bool.decide_eq_true]
  rfl

theorem unpack_zero : (Scalar.zero : Float).toModel.unpack = .zero .positive := rfl

theorem unpack_one :
    (Scalar.one : Float).toModel.unpack = .finite .positive (2 ^ 52) (-52) (by decide) := rfl

theorem lessEq_zero_iff {x : Float} :
    Scalar.lessEq Scalar.zero x = true ↔ NonNeg x.toModel.unpack := by
  rw [lessEq_eq, unpack_zero]
  generalize x.toModel.unpack = u
  unfold UnpackedFloat.le UnpackedFloat.compare
  match u with
  | .infinity .positive | .zero .positive | .zero .negative | .finite .positive _ _ _ =>
    exact ⟨fun _ => True.intro, fun _ => rfl⟩
  | .notANumber | .infinity .negative | .finite .negative _ _ _ =>
    exact ⟨Bool.false_ne_true, False.elim⟩

/-- A positive duration and a time that is at least as long. -/
theorem atLeast_of_le {u v : UnpackedFloat} (hcu : IsCanonical u) (hcv : IsCanonical v)
    (hu : u.le (.zero .positive) = false) (h : u.le v = true) :
    (u = .infinity .positive ∧ v = .infinity .positive) ∨
      ∃ m e hpos, u = .finite .positive m e hpos ∧ Canonical m e ∧ AtLeast m e v := by
  unfold UnpackedFloat.le UnpackedFloat.compare at hu h
  cases u with
  | notANumber => cases h
  | zero _ => cases hu
  | infinity s =>
    cases s with
    | negative => cases hu
    | positive =>
      cases v with
      | infinity s =>
        cases s with
        | positive => exact .inl ⟨rfl, rfl⟩
        | negative => cases h
      | notANumber | zero _ | finite _ _ _ _ => cases h
  | finite s m e hpos =>
    cases s with
    | negative => cases hu
    | positive =>
      cases v with
      | notANumber | zero _ => cases h
      | infinity s =>
        cases s with
        | positive => exact .inr ⟨m, e, hpos, rfl, hcu, .inl rfl⟩
        | negative => cases h
      | finite s f g hf =>
        cases s with
        | negative => cases h
        | positive =>
          refine .inr ⟨m, e, hpos, rfl, hcu, .inr ⟨f, g, hf, rfl, hcv, ?_⟩⟩
          dsimp only at h
          rw [Option.any_some] at h
          rcases Int.lt_trichotomy e g with hlt | rfl | hgt
          · exact .inl hlt
          · rw [Int.compare_eq_eq.2 rfl] at h
            exact .inr ⟨rfl, Nat.isLE_compare.1 h⟩
          · rw [Int.compare_eq_gt.2 hgt] at h
            cases h

theorem atLeast_of_lessEq {d x : Float} (hd : Scalar.lessEq d Scalar.zero = false)
    (h : Scalar.lessEq d x = true) :
    (d.toModel.unpack = .infinity .positive ∧ x.toModel.unpack = .infinity .positive) ∨
      ∃ m e hpos, d.toModel.unpack = .finite .positive m e hpos ∧ Canonical m e ∧
        AtLeast m e x.toModel.unpack := by
  rw [lessEq_eq] at hd h
  rw [unpack_zero] at hd
  exact atLeast_of_le (unpack_canonical _) (unpack_canonical _) hd h

theorem AtLeast.nonNeg {m : Nat} {e : Int} {u : UnpackedFloat} (h : AtLeast m e u) :
    NonNeg u := by
  rcases h with rfl | ⟨f, g, hf, rfl, -, -⟩
  · trivial
  · trivial

/-- Every number that is positive is at least some double. -/
theorem NonNeg.zero_or_atLeast {u : UnpackedFloat} (h : NonNeg u) (hcanonical : IsCanonical u) :
    (∃ s, u = .zero s) ∨ ∃ m e, Canonical m e ∧ AtLeast m e u := by
  match u, h with
  | .zero s, _ => exact .inl ⟨s, rfl⟩
  | .infinity .positive, _ => exact .inr ⟨2 ^ 52, -52, canonical_one, .inl rfl⟩
  | .finite .positive m e hpos, _ =>
    exact .inr ⟨m, e, hcanonical, .inr ⟨m, e, hpos, rfl, hcanonical, .inr ⟨rfl, Nat.le_refl m⟩⟩⟩

/-- Time does not become negative. -/
theorem lessEq_zero_add {t dt : Float} (ht : Scalar.lessEq Scalar.zero t = true)
    (hdt : Scalar.lessEq Scalar.zero dt = true) : Scalar.lessEq Scalar.zero (t + dt) = true := by
  rw [lessEq_zero_iff] at ht hdt ⊢
  have hct : IsCanonical t.toModel.unpack := unpack_canonical _
  have hcdt : IsCanonical dt.toModel.unpack := unpack_canonical _
  show NonNeg (Float.Model.pack
    (UnpackedFloat.add Format.binary64 t.toModel.unpack dt.toModel.unpack)).unpack
  generalize t.toModel.unpack = u at *
  generalize dt.toModel.unpack = v at *
  rcases hdt.zero_or_atLeast hcdt with ⟨s, rfl⟩ | ⟨m, e, hm, hatLeast⟩
  · rcases ht.zero_or_atLeast hct with ⟨s', rfl⟩ | ⟨m, e, hm, hatLeast⟩
    · cases s <;> cases s' <;> trivial
    · have hsame : UnpackedFloat.add Format.binary64 u (.zero s) = u := by
        rcases hatLeast with rfl | ⟨f, g, hf, rfl, -, -⟩
        · rfl
        · rfl
      rw [hsame]
      exact hatLeast.unpack_pack.nonNeg
  · exact (add_atLeast hm ht hatLeast).unpack_pack.nonNeg

theorem less_one_eq_false {x : Float} (h : AtLeast (2 ^ 52) (-52) x.toModel.unpack) :
    Scalar.less x Scalar.one = false := by
  rw [less_eq, unpack_one]
  rcases h with heq | ⟨f, g, hf, heq, -, hbelow⟩
  · rw [heq]
    rfl
  · rw [heq]
    show (some ((compare g (-52)).then (compare f (2 ^ 52))) == some Ordering.lt) = false
    rcases hbelow with hlt | ⟨rfl, hle⟩
    · rw [Int.compare_eq_gt.2 hlt]
      rfl
    · rw [Int.compare_eq_eq.2 rfl]
      rcases Nat.lt_or_eq_of_le hle with hlt | heq'
      · rw [Nat.compare_eq_gt.2 hlt]
        rfl
      · rw [Nat.compare_eq_eq.2 heq'.symm]
        rfl

/-- After a time that is at least a positive duration, added to any other, no less than the whole
    of that duration is over. -/
theorem div_add_not_less_one {t dt d : Float} (ht : Scalar.lessEq Scalar.zero t = true)
    (hd : Scalar.lessEq d Scalar.zero = false) (hdt : Scalar.lessEq d dt = true) :
    Scalar.less ((t + dt) / d) Scalar.one = false := by
  rw [lessEq_zero_iff] at ht
  rcases atLeast_of_lessEq hd hdt with ⟨hdinf, hdtinf⟩ | ⟨m, e, hpos, hdeq, hm, hatLeast⟩
  · -- An infinite part of an infinite duration is no number, and so not below one.
    rw [less_eq, unpack_one]
    show UnpackedFloat.lt (Float.Model.pack (UnpackedFloat.div Format.binary64
      (Float.Model.pack (UnpackedFloat.add Format.binary64 t.toModel.unpack
        dt.toModel.unpack)).unpack d.toModel.unpack)).unpack _ = false
    rw [hdtinf, hdinf, add_infinity ht]
    rfl
  · refine less_one_eq_false ?_
    have hsum : AtLeast m e (t + dt).toModel.unpack :=
      (add_atLeast hm ht hatLeast).unpack_pack
    show AtLeast _ _ (Float.Model.pack
      (UnpackedFloat.div Format.binary64 (t + dt).toModel.unpack d.toModel.unpack)).unpack
    rw [hdeq]
    exact (div_atLeast_one hpos hm hsum).unpack_pack

end VisualNovel.Number

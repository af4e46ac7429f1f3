import VisualNovel.Proofs.Number.Elapsing

/-!
What remains of a double when something is taken away from it. Rounding never goes above a double:
what is at most some double before it is rounded is so afterwards. So a time that has run for the
whole of a duration has run for at least that duration less a little.
-/

namespace VisualNovel.Number

open Float.Model Float.Model.UnpackedFloat

/-! ### One rounding, from above -/

/-- A shift by a power of two loses nothing of a multiple of that. -/
theorem shiftRight_mul_two_pow (b k : Nat) :
    ExtendedMantissa.ofMantissaAndAccuracy (b * 2 ^ k) .exact >>> k = ⟨b, false, false⟩ := by
  induction k generalizing b with
  | zero =>
    rw [Nat.pow_zero, Nat.mul_one]
    rfl
  | succ k ih =>
    rw [Nat.pow_succ', ← Nat.mul_assoc]
    show ExtendedMantissa.shiftRightOne ((_ : ExtendedMantissa) >>> k) = _
    rw [ih]
    simp [ExtendedMantissa.shiftRightOne]

/-- An exact mantissa is rounded to at most any whole number that is no less. -/
theorem roundedMantissa_le {m b k : Nat} (h : m ≤ b * 2 ^ k) :
    (ExtendedMantissa.ofMantissaAndAccuracy m .exact >>> k).roundedMantissa ≤ b := by
  rcases Nat.lt_or_eq_of_le h with hlt | rfl
  · have hbound :=
      (roundedMantissa_bounds (ExtendedMantissa.ofMantissaAndAccuracy m .exact >>> k)).2
    rw [mantissa_shiftRight, mantissa_ofMantissaAndAccuracy] at hbound
    have hquotient := (Nat.div_lt_iff_lt_mul (Nat.two_pow_pos k)).2 hlt
    omega
  · rw [shiftRight_mul_two_pow]
    exact Nat.le_refl b

/-- Rounding an exact mantissa, with the bound that it has from above. -/
theorem round_exact_eq (s : Sign) (m : Nat) (e : Int) :
    ∃ r, shifted m e ≤ r ∧ r ≤ shifted m e + 1 ∧
      (∀ b, m ≤ b * 2 ^ (grid m e - e).toNat → r ≤ b) ∧
      roundWithAccuracy Format.binary64 s m e .exact =
        if h : shifted r (raised m e) = 0 then .zero s
        else .finite s (shifted r (raised m e)) (raised r (raised m e)) (Nat.pos_of_ne_zero h) := by
  have hbounds := roundedMantissa_bounds (shiftToTargetExponent Format.binary64 m e .exact).1
  rw [mantissa_shiftToTargetExponent] at hbounds
  refine ⟨_, hbounds.1, hbounds.2, fun b hb => ?_, roundWithAccuracy_of_rounded s rfl⟩
  have hle := roundedMantissa_le hb
  rwa [← targetExponent_totalExponent] at hle

/-- What is at most a double before it is rounded is so afterwards. -/
theorem below_of_valueLe_left {m m' r : Nat} {e e' : Int} (hm : Canonical m e) (hm' : 0 < m')
    (he' : e' ≤ grid m' e') (h : ValueLe m' e' m e) (hlow : shifted m' e' ≤ r)
    (hhigh : r ≤ shifted m' e' + 1) (hceil : ∀ b, m' ≤ b * 2 ^ (grid m' e' - e').toNat → r ≤ b) :
    Below (shifted r (raised m' e')) (raised r (raised m' e')) m e := by
  obtain ⟨hpos, hgrid⟩ := hm
  have hsize := h.log2_add_le hm'
  obtain ⟨hbits, -⟩ := shifted_bounds hm' he'
  have hraised : raised m' e' = grid m' e' := by
    unfold raised
    omega
  have hle : grid m' e' ≤ e := by
    unfold grid at hgrid ⊢
    omega
  have hleast : -1074 ≤ grid m' e' := Int.le_max_right _ _
  -- On the grid of the bound, the bound's mantissa is a whole number to round to.
  have hsame (heq : grid m' e' = e) : r ≤ m := by
    refine hceil m ?_
    unfold ValueLe at h
    rwa [show (e' - e).toNat = 0 by omega, Nat.pow_zero, Nat.mul_one, ← heq] at h
  have hmbits : m.log2 ≤ 52 := by
    unfold grid at hgrid
    omega
  have hmlt : m < 2 ^ 53 := (Nat.log2_lt (Nat.pos_iff_ne_zero.1 hpos)).1 (by omega)
  rw [hraised]
  generalize grid m' e' = g at *
  by_cases hcarry : r = 2 ^ 53
  · have hlt : g < e := by
      rcases Int.lt_or_eq_of_le hle with hlt | heq
      · exact hlt
      · have := hsame heq
        omega
    obtain ⟨hshifted, hraised'⟩ := shift_of_carry hleast
    rw [hcarry, hshifted, hraised']
    by_cases hnext : g + 1 < e
    · exact .inl hnext
    · have hnormal : 52 ≤ m.log2 := by
        unfold grid at hgrid
        omega
      refine .inr ⟨by omega, ?_⟩
      calc 2 ^ 52 ≤ 2 ^ m.log2 := Nat.pow_le_pow_right (by decide) hnormal
        _ ≤ m := pow_log2_le hpos
  · have hlog : r.log2 ≤ 52 := by
      by_cases hzero : r = 0
      · simp [hzero]
      · have := (Nat.log2_lt hzero (k := 53)).2 (by omega)
        omega
    obtain ⟨hshifted, hraised'⟩ := shift_of_fits hlog hleast
    rw [hshifted, hraised']
    rcases Int.lt_or_eq_of_le hle with hlt | heq
    · exact .inl hlt
    · exact .inr ⟨heq, hsame heq⟩

/-- Rounding gives zero or a double, and one that is at most each double that the number was at most
    before. -/
theorem round_spec (s : Sign) (m' : Nat) (hm' : 0 < m') (e' : Int) :
    UnpackedFloat.round Format.binary64 s m' e' = .zero s ∨
      ∃ f g hf, UnpackedFloat.round Format.binary64 s m' e' = .finite s f g hf ∧ Canonical f g ∧
        ∀ m e, Canonical m e → ValueLe m' e' m e → Below f g m e := by
  unfold UnpackedFloat.round decreaseExponent
  dsimp only
  rw [targetExponent_totalExponent, Nat.shiftLeft_eq]
  generalize hk : (e' - grid m' e').toNat = k
  have hpos : 0 < m' * 2 ^ k := Nat.mul_pos hm' (Nat.two_pow_pos k)
  have hgrid : grid (m' * 2 ^ k) (e' - k) = grid m' e' := by
    unfold grid
    rw [log2_mul_two_pow hm']
    omega
  have hle : e' - k ≤ grid (m' * 2 ^ k) (e' - k) := by omega
  obtain ⟨r, hlow, hhigh, hceil, heq⟩ := round_exact_eq s (m' * 2 ^ k) (e' - k)
  by_cases hzero : shifted r (raised (m' * 2 ^ k) (e' - k)) = 0
  · rw [dif_pos hzero] at heq
    exact .inl heq
  · rw [dif_neg hzero] at heq
    refine .inr ⟨_, _, Nat.pos_of_ne_zero hzero, heq,
      canonical_of_le_grid hpos hle hlow hhigh (Nat.pos_of_ne_zero hzero), fun m e hm h => ?_⟩
    refine below_of_valueLe_left hm hpos hle ?_ hlow hhigh hceil
    have hc := (valueLe_iff (c := min e (e' - k)) (by omega) (by omega)).1 h
    rw [valueLe_iff (c := min e (e' - k)) (by omega) (by omega), Nat.mul_assoc, ← Nat.pow_add]
    rwa [show k + (e' - k - min e (e' - k)).toNat = (e' - min e (e' - k)).toNat by omega]

/-! ### Doubles -/

/-- The exponent of a double is not too large for one. -/
theorem unpack_exponent_le {b : BitVec Format.binary64.numBits} {s : Sign} {m : Nat} {e : Int}
    {hm : 0 < m} (h : UnpackedFloat.unpack Format.binary64 b = .finite s m e hm) : e ≤ 971 := by
  have hunpacks := unpacks b
  rw [h] at hunpacks
  cases hunpacks with
  | subnormal _ => decide
  | normal hones _ _ =>
    have hlt : (unpackExponent b).toNat < 2048 := (unpackExponent b).isLt
    have hne : (unpackExponent b).toNat ≠ 2047 := fun heq => hones (BitVec.eq_of_toNat_eq heq)
    omega

/-- A number that is at most a positive double. -/
def AtMost (m : Nat) (e : Int) : UnpackedFloat → Prop
  | .finite .positive f g _ => Canonical f g ∧ Below f g m e
  | .finite .negative f g _ => Canonical f g
  | .zero _ | .infinity .negative => True
  | _ => False

/-- Packing keeps a number at most as large as a double. -/
theorem AtMost.unpack_pack {m : Nat} {e : Int} (he : e ≤ 971) {u : UnpackedFloat}
    (h : AtMost m e u) : AtMost m e (Float.Model.pack u).unpack := by
  match u, h with
  | .zero s, _ =>
    cases s <;> exact True.intro
  | .infinity .negative, _ => exact True.intro
  | .finite .negative f g hf, hcanonical =>
    rcases unpack_pack_finite .negative hf hcanonical with hsame | ⟨-, hinfinite⟩
    · show AtMost m e (UnpackedFloat.unpack _ (UnpackedFloat.pack _ _))
      rw [hsame]
      exact hcanonical
    · show AtMost m e (UnpackedFloat.unpack _ (UnpackedFloat.pack _ _))
      rw [hinfinite]
      exact True.intro
  | .finite .positive f g hf, ⟨hcanonical, hbelow⟩ =>
    have hg : g ≤ 971 := by
      unfold Below at hbelow
      omega
    rcases unpack_pack_finite .positive hf hcanonical with hsame | ⟨hlarge, -⟩
    · show AtMost m e (UnpackedFloat.unpack _ (UnpackedFloat.pack _ _))
      rw [hsame]
      exact ⟨hcanonical, hbelow⟩
    · omega

/-- What is left of a positive double is at most that. -/
theorem sub_atMost {m n : Nat} {e d : Int} (hm : 0 < m) (hcanonical : Canonical m e) (hn : 0 < n) :
    AtMost m e (UnpackedFloat.sub Format.binary64 (.finite .positive m e hm)
      (.finite .positive n d hn)) := by
  unfold UnpackedFloat.sub decreaseExponent Sign.apply
  dsimp only
  rw [Nat.shiftLeft_eq, Nat.shiftLeft_eq]
  generalize hx : m * 2 ^ (e - min e d).toNat = x
  generalize hy : n * 2 ^ (d - min e d).toNat = y
  have hypos : 0 < y := hy ▸ Nat.mul_pos hn (Nat.two_pow_pos _)
  unfold UnpackedFloat.normalize
  rcases Int.lt_trichotomy ((x : Int) - y) 0 with hneg | hzero | hpos
  · rw [Int.compare_eq_lt.2 hneg]
    dsimp only
    rcases round_spec .negative (-((x : Int) - y)).toNat (by omega) (min e d) with
      heq | ⟨f, g, hf, heq, hfg, -⟩
    · rw [heq]
      exact True.intro
    · rw [heq]
      exact hfg
  · rw [hzero]
    exact True.intro
  · rw [Int.compare_eq_gt.2 hpos]
    dsimp only
    rcases round_spec .positive ((x : Int) - y).toNat (by omega) (min e d) with
      heq | ⟨f, g, hf, heq, hfg, hbelow⟩
    · rw [heq]
      exact True.intro
    · rw [heq]
      refine ⟨hfg, hbelow m e hcanonical ?_⟩
      rw [valueLe_iff (c := min e d) (by omega) (by omega), hx, Int.sub_self, Int.toNat_zero,
        Nat.pow_zero, Nat.mul_one]
      omega

/-- A time that is not negative is no less than the same time with a positive double taken away,
    although that difference is rounded. -/
theorem lessEq_sub_self {t c : Float} (ht : Scalar.lessEq Scalar.zero t = true) {n : Nat} {d : Int}
    {hn : 0 < n} (hc : c.toModel.unpack = .finite .positive n d hn) :
    Scalar.lessEq (t - c) t = true := by
  rw [lessEq_zero_iff] at ht
  rw [lessEq_eq]
  show UnpackedFloat.le (Float.Model.pack (UnpackedFloat.sub Format.binary64 t.toModel.unpack
    c.toModel.unpack)).unpack _ = true
  have hcc : IsCanonical c.toModel.unpack := unpack_canonical _
  have hct : IsCanonical t.toModel.unpack := unpack_canonical _
  have hbound : ∀ s m e hm, t.toModel.unpack = .finite s m e hm → e ≤ 971 :=
    fun s m e hm h => unpack_exponent_le h
  rw [hc] at hcc ⊢
  generalize t.toModel.unpack = u at *
  match u, ht with
  | .infinity .positive, _ =>
    have hinfinite : (Float.Model.pack (.infinity .positive)).unpack = .infinity .positive := rfl
    show UnpackedFloat.le (Float.Model.pack (.infinity .positive)).unpack _ = true
    rw [hinfinite]
    rfl
  | .zero s, _ =>
    show UnpackedFloat.le (UnpackedFloat.unpack Format.binary64
      (UnpackedFloat.pack Format.binary64 (.finite .negative n d hn))) _ = true
    rcases unpack_pack_finite .negative hn hcc with hsame | ⟨-, hinfinite⟩
    · rw [hsame]
      rfl
    · rw [hinfinite]
      rfl
  | .finite .positive m e hm, _ =>
    have hatMost := (sub_atMost hm hct hn (d := d)).unpack_pack (hbound _ _ _ _ rfl)
    generalize (Float.Model.pack (UnpackedFloat.sub Format.binary64 (.finite .positive m e hm)
      (.finite .positive n d hn))).unpack = v at *
    match v, hatMost with
    | .zero _, _ => rfl
    | .infinity .negative, _ => rfl
    | .finite .negative f g hf, _ => rfl
    | .finite .positive f g hf, ⟨_, hbelow⟩ =>
      show ((compare g e).then (compare f m)).isLE = true
      rcases hbelow with hlt | ⟨rfl, hle⟩
      · rw [Int.compare_eq_lt.2 hlt]
        rfl
      · rw [Int.compare_eq_eq.2 rfl]
        exact Nat.isLE_compare.2 hle

/-! ### What is no number -/

theorem unpack_div_of_nan {x y : Float} (hx : x.toModel.unpack = .notANumber) :
    (x / y).toModel.unpack = .notANumber := by
  have hdiv (v : UnpackedFloat) : UnpackedFloat.div Format.binary64 .notANumber v = .notANumber := by
    cases v <;> rfl
  show (Float.Model.pack (UnpackedFloat.div Format.binary64 x.toModel.unpack
    y.toModel.unpack)).unpack = _
  rw [hx, hdiv]
  rfl

theorem less_of_nan {x y : Float} (hx : x.toModel.unpack = .notANumber) :
    Scalar.less x y = false := by
  rw [less_eq, hx]
  rfl

/-- What is neither at most zero nor at least zero is no number. -/
theorem unpack_eq_notANumber {x : Float} (hx : Scalar.lessEq x Scalar.zero = false)
    (hx' : ¬ Scalar.lessEq Scalar.zero x = true) : x.toModel.unpack = .notANumber := by
  rw [lessEq_zero_iff] at hx'
  rw [lessEq_eq, unpack_zero] at hx
  generalize x.toModel.unpack = u at *
  match u with
  | .notANumber => rfl
  | .infinity .positive => exact absurd True.intro hx'
  | .infinity .negative => cases hx
  | .zero _ => exact absurd True.intro hx'
  | .finite .positive _ _ _ => exact absurd True.intro hx'
  | .finite .negative _ _ _ => cases hx

end VisualNovel.Number

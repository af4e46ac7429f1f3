import VisualNovel.Proofs.Number.Between

/-!
Lengths and places as doubles. Whole numbers are doubles up to 53 bits; a quotient of two of them
and a product with a double in bounds are in bounds, and so is what is left without the fraction. A
finite double over a hundred is finite.
-/

namespace VisualNovel.Number

open Float.Model Float.Model.UnpackedFloat

variable {lo hi : ℚ} {x : Float}

/-! ### Bounds and parts -/

theorem cast_units (m : Nat) {e : Int} (he : -1074 ≤ e) :
    ((m * 2 ^ (e + 1074).toNat : Nat) : ℚ) / unitsPerOne = m * 2 ^ e := by
  obtain ⟨k, hk⟩ : ∃ k : Nat, k = 1074 := ⟨_, rfl⟩
  rw [← two_pow_eq_unitsPerOne hk, Nat.cast_mul, Nat.cast_pow, Nat.cast_pow, Nat.cast_ofNat,
    mul_div_assoc, ← zpow_natCast, ← zpow_natCast, ← zpow_sub₀ (by norm_num)]
  congr 2
  omega

theorem isFinite_of_parts {negative : Bool} {units : Nat} (h : parts x = .finite negative units) :
    IsFinite x.toModel.unpack ∧ valueOf x.toModel.unpack = signed negative units / unitsPerOne := by
  have hcanonical : IsCanonical x.toModel.unpack := unpack_canonical _
  have hbound : ∀ s m e hm, x.toModel.unpack = .finite s m e hm → e ≤ 971 :=
    fun s m e hm h => unpack_exponent_le h
  obtain ⟨s, rfl, ⟨rfl, hunpack⟩ | ⟨m, e, hm, rfl, hunpack⟩⟩ := unpack_of_parts h
  · have hzero : signed (isNegative s) 0 = 0 := by cases s <;> rfl
    rw [hunpack, hzero, Int.cast_zero, zero_div]
    exact ⟨trivial, rfl⟩
  · rw [hunpack] at hcanonical
    have he : -1074 ≤ e := by
      rw [hcanonical.2]
      exact Int.le_max_right _ _
    rw [hunpack, valueOf_finite]
    refine ⟨⟨hcanonical, hbound s m e hm hunpack⟩, ?_⟩
    have hcast := cast_units m he
    cases s with
    | positive => exact hcast.symm
    | negative =>
      show ((-m : Int) : ℚ) * 2 ^ e = ((-(_ : Nat) : Int) : ℚ) / _
      rw [Int.cast_neg, Int.cast_neg, Int.cast_natCast, Int.cast_natCast, neg_div, hcast, neg_mul]

/-- The parts of a double in bounds. -/
theorem Within.exists_parts (h : Within lo hi x) :
    ∃ negative units, parts x = .finite negative units ∧
      lo ≤ signed negative units / unitsPerOne ∧ signed negative units / unitsPerOne ≤ hi := by
  have hfinite := h.finite
  have hparts : ∃ negative units, parts x = .finite negative units := by
    rw [parts_eq]
    match x.toModel.unpack, hfinite with
    | .zero _, _ => exact ⟨_, _, rfl⟩
    | .finite _ _ _ _, _ => exact ⟨_, _, rfl⟩
  obtain ⟨negative, units, hparts⟩ := hparts
  refine ⟨negative, units, hparts, ?_⟩
  rw [← (isFinite_of_parts hparts).2]
  exact ⟨h.low, h.high⟩

theorem within_of_parts {negative : Bool} {units : Nat} (h : parts x = .finite negative units)
    (hlow : lo ≤ signed negative units / unitsPerOne)
    (hhigh : signed negative units / unitsPerOne ≤ hi) : Within lo hi x := by
  obtain ⟨hfinite, hvalue⟩ := isFinite_of_parts h
  exact ⟨hfinite, hvalue ▸ hlow, hvalue ▸ hhigh⟩

theorem Within.split (h : Within lo hi x) (q : ℚ) : Within lo q x ∨ Within q hi x := by
  rcases le_total (valueOf x.toModel.unpack) q with hle | hge
  · exact .inl ⟨h.finite, h.low, hle⟩
  · exact .inr ⟨h.finite, hge, h.high⟩

theorem within_of_unpack {m : Nat} {e : Int} {hm : 0 < m}
    (h : x.toModel.unpack = .finite .positive m e hm) (hcanonical : Canonical m e) (he : e ≤ 971) :
    Within (m * 2 ^ e) (m * 2 ^ e) x := by
  have hvalue : valueOf x.toModel.unpack = m * 2 ^ e := by
    rw [h]
    rfl
  refine ⟨?_, hvalue.ge, hvalue.le⟩
  rw [h]
  exact ⟨hcanonical, he⟩

/-! ### Whole numbers -/

theorem unitsPerOne_pos_rat : (0 : ℚ) < unitsPerOne := by
  exact_mod_cast unitsPerOne_pos

/-- A double that is not negative, with a bound for its units. -/
theorem within_of_units {units b : Nat} (h : parts x = .finite false units)
    (hunits : units ≤ b * unitsPerOne) : Within 0 b x := by
  have hsigned : signed false units = units := rfl
  refine within_of_parts h ?_ ?_
  · rw [hsigned, Int.cast_natCast]
    exact div_nonneg (Nat.cast_nonneg _) unitsPerOne_pos_rat.le
  · rw [hsigned, Int.cast_natCast, div_le_iff₀ unitsPerOne_pos_rat, ← Nat.cast_mul, Nat.cast_le]
    exact hunits

/-- A whole number that takes at most 53 bits is a double. -/
theorem within_ofInt {n : Int} (h : n.natAbs < 2 ^ 53) : Within n n (ofInt n) := by
  have hvalue : ((signed (n < 0) (n.natAbs * unitsPerOne) : Int) : ℚ) / unitsPerOne = n := by
    have hsigned : signed (n < 0) (n.natAbs * unitsPerOne) = n * unitsPerOne := by
      unfold signed
      rcases Int.lt_or_le n 0 with hneg | hpos
      · rw [if_pos (by simpa using hneg), Int.natCast_mul, ← Int.neg_mul]
        congr 1
        omega
      · rw [if_neg (by simpa using hpos), Int.natCast_mul]
        congr 1
        omega
    rw [hsigned, Int.cast_mul, Int.cast_natCast, mul_div_cancel_right₀ _ unitsPerOne_pos_rat.ne']
  exact within_of_parts (parts_ofInt h) hvalue.ge hvalue.le

theorem Within.isExact {q : ℚ} (h : Within q q x) : IsExact q :=
  ⟨x.toModel.unpack, h.finite, le_antisymm h.high h.low⟩

theorem isExact_int {n : Int} (h : n.natAbs < 2 ^ 53) : IsExact n := (within_ofInt h).isExact

/-- Powers of two are doubles, far beyond 53 bits. -/
theorem isExact_two_pow {k : Nat} (hk : k ≤ 1023) : IsExact (2 ^ k) := by
  have hlog : (2 ^ 52).log2 = 52 := Nat.log2_two_pow
  refine ⟨.finite .positive (2 ^ 52) (k - 52) (by decide), ⟨⟨by decide, ?_⟩, by omega⟩, ?_⟩
  · unfold grid
    rw [hlog]
    omega
  · show (((2 ^ 52 : Nat) : Int) : ℚ) * 2 ^ ((k : Int) - 52) = 2 ^ k
    rw [Int.cast_natCast, Nat.cast_pow, Nat.cast_ofNat, ← zpow_natCast, ← zpow_natCast,
      ← zpow_add₀ (by norm_num)]
    congr 1
    omega

/-- A part of a number in bounds around zero. -/
theorem Within.mul_fraction {y : Float} (h : Within lo hi x) (hy : Within 0 1 y) (hlo : IsExact lo)
    (hhi : IsExact hi) (hlow : lo ≤ 0) (hhigh : 0 ≤ hi) : Within lo hi (x * y) :=
  h.mul hy hlo hhi fun p q hp hq => ⟨by nlinarith, by nlinarith⟩

/-- A number without its fraction is between the same whole numbers. -/
theorem Within.truncate {lo hi : Int} (h : Within lo hi x) :
    ∃ n, truncate x = .ok n ∧ lo ≤ n ∧ n ≤ hi := by
  obtain ⟨negative, units, hparts, hlow, hhigh⟩ := h.exists_parts
  rw [le_div_iff₀ unitsPerOne_pos_rat] at hlow
  rw [div_le_iff₀ unitsPerOne_pos_rat] at hhigh
  have hlow : lo * unitsPerOne ≤ signed negative units := by exact_mod_cast hlow
  have hhigh : signed negative units ≤ hi * unitsPerOne := by exact_mod_cast hhigh
  have hpos := unitsPerOne_pos
  unfold Number.truncate
  rw [hparts]
  dsimp only
  generalize unitsPerOne = u at *
  refine ⟨_, rfl, ?_⟩
  have hcast : ((units / u : Nat) : Int) = (units : Int) / u := Int.natCast_ediv units u
  have hupos : (0 : Int) < u := by exact_mod_cast hpos
  cases negative with
  | false =>
    rw [if_neg Bool.false_ne_true, hcast]
    exact ⟨(Int.le_ediv_iff_mul_le hupos).2 hlow, Int.ediv_le_of_le_mul hupos hhigh⟩
  | true =>
    rw [if_pos rfl, hcast]
    have hneg : signed true units = -(units : Int) := rfl
    rw [hneg] at hlow hhigh
    have hupper : (units : Int) / u ≤ -lo := Int.ediv_le_of_le_mul hupos (by linarith)
    have hlower : -hi ≤ (units : Int) / u := (Int.le_ediv_iff_mul_le hupos).2 (by linarith)
    exact ⟨by omega, by omega⟩

/-- A finite double comes to a whole number. -/
theorem exists_truncate (h : IsFinite x.toModel.unpack) : ∃ n, truncate x = .ok n := by
  obtain ⟨negative, units, hparts, -, -⟩ := Within.exists_parts ⟨h, le_rfl, le_rfl⟩
  unfold Number.truncate
  rw [hparts]
  exact ⟨_, rfl⟩

/-! ### Quotients -/

theorem unitsOfBits_le {bits j : Nat} (h : bits ≤ (j + 2) * 2 ^ 52) :
    unitsOfBits bits ≤ 2 ^ (53 + j) := by
  rcases Nat.lt_or_ge bits (2 ^ 52) with hsmall | hlarge
  · rw [unitsOfBits_of_lt hsmall]
    exact hsmall.le.trans (Nat.pow_le_pow_right (by decide) (by omega))
  have hsplit : bits = bits / 2 ^ 52 * 2 ^ 52 + bits % 2 ^ 52 := by omega
  have hrest : bits % 2 ^ 52 < 2 ^ 52 := Nat.mod_lt _ (by decide)
  rw [hsplit, unitsOfBits_normal (by omega) hrest]
  rcases Nat.lt_or_ge (bits / 2 ^ 52) (j + 2) with hlt | hge
  · calc (2 ^ 52 + bits % 2 ^ 52) * 2 ^ (bits / 2 ^ 52 - 1)
        ≤ 2 ^ 53 * 2 ^ j :=
          Nat.mul_le_mul (by omega) (Nat.pow_le_pow_right (by decide) (by omega))
      _ = 2 ^ (53 + j) := (Nat.pow_add ..).symm
  · rw [show bits % 2 ^ 52 = 0 by omega, show bits / 2 ^ 52 - 1 = j + 1 by omega, Nat.add_zero,
      ← Nat.pow_add]
    exact Nat.pow_le_pow_right (by decide) (by omega)

theorem roundDiv_le (num den : Nat) : roundDiv num den ≤ num / den + 1 := by
  unfold roundDiv
  dsimp only
  split
  · omega
  split <;> omega

/-- A quotient is rounded to a double on its grid, or to the one at the end of the grid. -/
theorem nearestBits_le (num den : Nat) :
    nearestBits num den ≤ (Nat.log2 (num * unitsPerOne / den) - 52 + 2) * 2 ^ 52 := by
  unfold nearestBits
  dsimp only
  generalize num * unitsPerOne = scaled
  generalize hj : Nat.log2 (scaled / den) - 52 = j
  have hround := roundDiv_le scaled (den * Nat.pow 2 j)
  have hquotient : scaled / (den * Nat.pow 2 j) < 2 ^ 53 := by
    rw [← Nat.div_div_eq_div_mul]
    show scaled / den / 2 ^ j < 2 ^ 53
    rw [Nat.div_lt_iff_lt_mul (Nat.two_pow_pos j), ← Nat.pow_add]
    exact Nat.lt_log2_self.trans_le (Nat.pow_le_pow_right (by decide) (by omega))
  refine (Nat.min_le_left _ _).trans ?_
  show j * 2 ^ 52 + _ ≤ _
  omega

/-- A quotient of whole numbers that are not negative. -/
theorem within_ofQuotient {m n : Int} (hm : 0 ≤ m) (hn : 0 < n) {k : Nat} (hk : k ≤ 1000)
    (h : m < 2 ^ k) : Within 0 (2 ^ (k + 1) : Nat) (ofQuotient m n) := by
  have hinf : infinityBits = 2047 * 2 ^ 52 := rfl
  have hnum : m.natAbs < 2 ^ k := by
    zify
    rwa [abs_of_nonneg hm]
  obtain ⟨one, hone⟩ : ∃ one : Nat, one = 1074 := ⟨_, rfl⟩
  have hscaled : m.natAbs * unitsPerOne / n.natAbs < 2 ^ (k + one) := by
    refine (Nat.div_le_self _ _).trans_lt ?_
    rw [Nat.pow_add, two_pow_eq_unitsPerOne hone]
    exact Nat.mul_lt_mul_of_pos_right hnum unitsPerOne_pos
  have hlog : Nat.log2 (m.natAbs * unitsPerOne / n.natAbs) - 52 ≤ k + 1021 := by
    by_cases hzero : m.natAbs * unitsPerOne / n.natAbs = 0
    · rw [hzero]
      simp
    · have hlt := (Nat.log2_lt hzero).2 hscaled
      omega
  have hbits := nearestBits_le m.natAbs n.natAbs
  have hunits : unitsOfBits (nearestBits m.natAbs n.natAbs) ≤ 2 ^ (k + 1) * unitsPerOne := by
    rw [← two_pow_eq_unitsPerOne hone, ← Nat.pow_add]
    exact (unitsOfBits_le hbits).trans (Nat.pow_le_pow_right (by decide) (by omega))
  have hsign : (decide (m < 0) != decide (n < 0)) = false := by
    rw [decide_eq_false (by omega), decide_eq_false (by omega)]
    rfl
  have hparts : parts (ofQuotient m n) =
      .finite false (unitsOfBits (nearestBits m.natAbs n.natAbs)) := by
    unfold ofQuotient nearest
    have hle : nearestBits m.natAbs n.natAbs ≤ infinityBits := Nat.min_le_right _ _
    rw [hsign, parts_ofMagnitudeBits false hle, if_pos (by omega)]
  exact within_of_units hparts hunits

/-! ### A hundredth -/

/-- A quotient is taken on a grid fine enough for all its bits. Its size is the difference of the
    sizes. -/
theorem divCore_bounds {m m' : Nat} (e e' : Int) (hm : 0 < m) (hm' : 0 < m') :
    ∃ q t a, divCore Format.binary64 m e m' e' = (q, t, a) ∧
      t ≤ grid q t ∧ (q ≠ 0 → (q.log2 : Int) + t ≤ (m.log2 + e) - (m'.log2 + e')) := by
  refine ⟨_, _, _, rfl, ?_⟩
  have htarget : Format.binary64.targetExponent (totalExponent m e - totalExponent m' e') =
      max ((m.log2 : Int) + e - m'.log2 - e' - 53) (-1074) := by
    have hbits : (Format.binary64.mantissaBits : Int) = 53 := rfl
    have hmin : Format.binary64.minExponent = -1074 := rfl
    unfold Format.targetExponent totalExponent
    rw [hbits, hmin]
    congr 1
    omega
  rw [htarget, Nat.shiftLeft_eq]
  generalize ht : min (e - e') (max ((m.log2 : Int) + e - m'.log2 - e' - 53) (-1074)) = t
  generalize hs : (e - e' - t).toNat = shift
  constructor
  · by_cases habove : -1074 < t
    · have hfull : 2 ^ 52 ≤ m * 2 ^ shift / m' := by
        rw [Nat.le_div_iff_mul_le hm']
        calc 2 ^ 52 * m' ≤ 2 ^ 52 * 2 ^ (m'.log2 + 1) :=
              Nat.mul_le_mul_left _ Nat.lt_log2_self.le
          _ = 2 ^ (52 + (m'.log2 + 1)) := (Nat.pow_add ..).symm
          _ ≤ 2 ^ (m.log2 + shift) := Nat.pow_le_pow_right (by decide) (by omega)
          _ = 2 ^ m.log2 * 2 ^ shift := Nat.pow_add ..
          _ ≤ m * 2 ^ shift := Nat.mul_le_mul_right _ (pow_log2_le hm)
      have hlog := (Nat.le_log2 (by omega)).2 hfull
      unfold grid
      omega
    · unfold grid
      omega
  · intro hq
    have hlt : m * 2 ^ shift / m' < 2 ^ (m.log2 + 1 + shift - m'.log2) := by
      rw [Nat.div_lt_iff_lt_mul hm']
      calc m * 2 ^ shift < 2 ^ (m.log2 + 1) * 2 ^ shift :=
            Nat.mul_lt_mul_of_pos_right Nat.lt_log2_self (Nat.two_pow_pos _)
        _ = 2 ^ (m.log2 + 1 + shift) := (Nat.pow_add ..).symm
        _ ≤ 2 ^ (m.log2 + 1 + shift - m'.log2 + m'.log2) :=
            Nat.pow_le_pow_right (by decide) (by omega)
        _ = 2 ^ (m.log2 + 1 + shift - m'.log2) * 2 ^ m'.log2 := Nat.pow_add ..
        _ ≤ 2 ^ (m.log2 + 1 + shift - m'.log2) * m' := Nat.mul_le_mul_left _ (pow_log2_le hm')
    have hlog := (Nat.log2_lt hq).2 hlt
    omega

/-- What is rounded to a grid that is not too large for a double is finite. -/
theorem roundWithAccuracy_finite (s : Sign) {m : Nat} {e : Int} (a : Accuracy) (he : e ≤ grid m e)
    (hsize : grid m e ≤ 970) : IsFinite (roundWithAccuracy Format.binary64 s m e a) := by
  obtain ⟨r, hlow, hhigh, heq⟩ := roundWithAccuracy_eq s m e a
  have hraised : raised m e = grid m e := by
    unfold raised
    omega
  have hleast : -1074 ≤ grid m e := Int.le_max_right _ _
  by_cases hzero : shifted r (raised m e) = 0
  · rw [dif_pos hzero] at heq
    rw [heq]
    trivial
  rw [dif_neg hzero] at heq
  rw [heq]
  show Canonical (shifted r (raised m e)) (raised r (raised m e)) ∧ raised r (raised m e) ≤ 971
  have hrpos : r ≠ 0 := by
    rintro rfl
    simp [shifted] at hzero
  rcases Nat.eq_zero_or_pos m with rfl | hm
  · -- of nothing at most one unit of the least grid is left
    have hgrid : grid 0 e = -1074 := by
      unfold grid at he ⊢
      rw [Nat.log2_zero] at he ⊢
      omega
    have hone : r = 1 := by
      unfold shifted at hhigh
      rw [Nat.zero_div] at hhigh
      omega
    obtain ⟨hsame, hsame'⟩ := shift_of_fits (r := 1) (g := -1074) (by decide) (by decide)
    rw [hraised, hgrid, hone, hsame, hsame']
    exact ⟨⟨by decide, by decide⟩, by decide⟩
  · refine ⟨canonical_of_le_grid hm he hlow hhigh (Nat.pos_of_ne_zero hzero), ?_⟩
    have hbits := (shifted_bounds hm he).1
    have hlog := (Nat.log2_lt hrpos).2 (show r < 2 ^ 54 by omega)
    rw [hraised]
    unfold raised
    unfold grid at hleast hsize ⊢
    omega

/-- The double a hundred. -/
theorem unpack_hundred :
    (100 : Float).toModel.unpack = .finite .positive (100 * 2 ^ 46) (-46) (by decide) := rfl

/-- A hundredth of a finite double is finite. -/
theorem isFinite_hundredth (h : IsFinite x.toModel.unpack) :
    IsFinite (x / 100).toModel.unpack := by
  have hdiv : IsFinite (UnpackedFloat.div Format.binary64 x.toModel.unpack
      (100 : Float).toModel.unpack) := by
    rw [unpack_hundred]
    match x.toModel.unpack, h with
    | .zero _, _ => trivial
    | .finite s m e hm, ⟨⟨_, hgrid⟩, he⟩ =>
      obtain ⟨q, t, a, hcore, ht, hq⟩ :=
        divCore_bounds e (-46) hm (by decide : 0 < 100 * 2 ^ 46)
      have hlog : (100 * 2 ^ 46).log2 = 52 := by decide
      show IsFinite (match divCore Format.binary64 m e (100 * 2 ^ 46) (-46) with
        | (m, e, acc) => roundWithAccuracy Format.binary64 (s / .positive) m e acc)
      rw [hcore]
      refine roundWithAccuracy_finite _ a ht ?_
      by_cases hzero : q = 0
      · subst hzero
        unfold grid at ht ⊢
        rw [Nat.log2_zero] at ht ⊢
        omega
      · have hsize := hq hzero
        unfold grid at hgrid ⊢
        omega
  show IsFinite (Float.Model.pack _).unpack
  rwa [hdiv.unpack_pack]

/-! ### Parts of one -/

/-- A double above zero that is not at least one. -/
theorem between_zero_one {u : UnpackedFloat} (hcanonical : IsCanonical u)
    (hpos : UnpackedFloat.lt (.zero .positive) u = true) (h : ¬ AtLeast (2 ^ 52) (-52) u) :
    Between 0 1 u := by
  match u, hpos with
  | .infinity .positive, _ => exact absurd (.inl rfl) h
  | .finite .positive m e hm, _ =>
    have hbelow : ¬ (-52 < e ∨ -52 = e ∧ 2 ^ 52 ≤ m) :=
      fun hle => h (.inr ⟨m, e, hm, rfl, hcanonical, hle⟩)
    have hgrid := hcanonical.2
    have hbits : m.log2 ≤ 52 := by
      unfold grid at hgrid
      omega
    have hlt : m < 2 ^ 53 := (Nat.log2_lt hm.ne').1 (by omega)
    have hone : ValueLe m e 1 0 := by
      unfold ValueLe
      rw [show (e - 0).toNat = 0 by omega, Nat.pow_zero, Nat.mul_one, Nat.one_mul]
      by_cases he : e = -52
      · subst he
        show m ≤ 2 ^ 52
        omega
      · exact hlt.le.trans (Nat.pow_le_pow_right (by decide) (by omega))
    refine ⟨⟨hcanonical, by omega⟩, ?_, ?_⟩
    · show (0 : ℚ) ≤ m * 2 ^ e
      positivity
    · show (m : ℚ) * 2 ^ e ≤ 1
      simpa using valueLe_iff_rat.1 hone

theorem lessEq_one_of_atLeast {x : Float} (h : AtLeast (2 ^ 52) (-52) x.toModel.unpack) :
    Scalar.lessEq Scalar.one x = true := by
  rw [lessEq_eq, unpack_one]
  rcases h with heq | ⟨f, g, hf, heq, -, hbelow⟩
  · rw [heq]
    rfl
  · rw [heq]
    show ((compare (-52) g).then (compare (2 ^ 52) f)).isLE = true
    rcases hbelow with hlt | ⟨rfl, hle⟩
    · rw [Int.compare_eq_lt.2 hlt]
      rfl
    · rw [Int.compare_eq_eq.2 rfl]
      exact Nat.isLE_compare.2 hle

theorem within_zero_one (hpos : Scalar.less Scalar.zero x = true)
    (h : Scalar.lessEq Scalar.one x = false) : Within 0 1 x := by
  rw [less_eq, unpack_zero] at hpos
  refine between_zero_one (unpack_canonical _) hpos fun hatLeast => ?_
  rw [lessEq_one_of_atLeast hatLeast] at h
  cases h

theorem within_zero : Within 0 0 (Scalar.zero : Float) := ⟨trivial, le_rfl, le_rfl⟩

theorem within_one : Within 1 1 (Scalar.one : Float) := by
  have hvalue : valueOf (Scalar.one : Float).toModel.unpack = 1 := by
    rw [unpack_one, valueOf_finite]
    show (((2 ^ 52 : Nat) : Int) : ℚ) * 2 ^ (-52 : Int) = 1
    norm_num
  refine ⟨?_, hvalue.ge, hvalue.le⟩
  rw [unpack_one]
  exact ⟨canonical_one, by decide⟩

/-- Whatever is brought between zero and one is there, also if it was no number. -/
theorem within_clamp (x : Float) : Within 0 1 (Scalar.clamp x) := by
  have hzero : Within 0 1 (Scalar.zero : Float) := within_zero.mono le_rfl zero_le_one
  have hone : Within 0 1 (Scalar.one : Float) := within_one.mono zero_le_one le_rfl
  unfold Scalar.clamp Scalar.greatest Scalar.least
  by_cases hless : Scalar.less x Scalar.one = true
  · rw [if_pos hless]
    split
    · next hpos =>
      rw [less_eq, unpack_zero] at hpos
      refine between_zero_one (unpack_canonical _) hpos fun hatLeast => ?_
      rw [less_one_eq_false hatLeast] at hless
      cases hless
    · exact hzero
  · rw [if_neg hless]
    split
    · exact hone
    · exact hzero

end VisualNovel.Number

import Mathlib.Algebra.Order.Field.Power
import Mathlib.Tactic.Linarith
import VisualNovel.Proofs.Number.Remaining
import VisualNovel.Proofs.Number.Whole

/-!
Arithmetic between bounds. Rounding never passes a double: a sum, a difference or a product that
lies between two doubles does so after it is rounded, and it is finite.
-/

namespace VisualNovel.Number

open Float.Model Float.Model.UnpackedFloat

/-! ### Values -/

/-- The value of a finite number. -/
def valueOf : UnpackedFloat → ℚ
  | .finite s m e _ => s.apply m * 2 ^ e
  | _ => 0

/-- A finite number that is a double. -/
def IsFinite : UnpackedFloat → Prop
  | .zero _ => True
  | .finite _ m e _ => Canonical m e ∧ e ≤ 971
  | _ => False

/-- A double with a value between two others. -/
structure Between (lo hi : ℚ) (u : UnpackedFloat) : Prop where
  finite : IsFinite u
  low : lo ≤ valueOf u
  high : valueOf u ≤ hi

/-- A number that some double has as its value. -/
def IsExact (q : ℚ) : Prop := ∃ u, IsFinite u ∧ valueOf u = q

theorem isExact_zero : IsExact 0 := ⟨.zero .positive, trivial, rfl⟩

theorem valueOf_finite (s : Sign) (m : Nat) (e : Int) (hm : 0 < m) :
    valueOf (.finite s m e hm) = (s.apply m : Int) * 2 ^ e := rfl

theorem apply_mul (s : Sign) (m n : Nat) : s.apply (m * n : Nat) = s.apply m * n := by
  cases s
  · exact (congrArg _ (Int.natCast_mul m n)).trans (Int.neg_mul ..).symm
  · exact Int.natCast_mul m n

theorem apply_sign_mul (s s' : Sign) (m n : Nat) :
    (s * s').apply (m * n : Nat) = s.apply m * s'.apply n := by
  cases s <;> cases s'
  · exact (Int.natCast_mul m n).trans (Int.neg_mul_neg ..).symm
  · exact apply_mul .negative m n
  · exact (congrArg _ (Int.natCast_mul m n)).trans (Int.mul_neg ..).symm
  · exact Int.natCast_mul m n

/-- A double is kept as it is. -/
theorem IsFinite.unpack_pack {u : UnpackedFloat} (h : IsFinite u) :
    (Float.Model.pack u).unpack = u := by
  match u, h with
  | .zero s, _ => cases s <;> rfl
  | .finite s m e hm, ⟨hcanonical, he⟩ =>
    rcases unpack_pack_finite s hm hcanonical with hsame | ⟨hlarge, -⟩
    · exact hsame
    · omega

theorem zpow_two_eq {e c : Int} (h : c ≤ e) : (2 : ℚ) ^ e = 2 ^ (e - c).toNat * 2 ^ c := by
  rw [← zpow_natCast, ← zpow_add₀ (by norm_num)]
  congr 1
  omega

/-- The order of values, in whole numbers and in fractions. -/
theorem valueLe_iff_rat {m m' : Nat} {e e' : Int} :
    ValueLe m e m' e' ↔ (m : ℚ) * 2 ^ e ≤ m' * 2 ^ e' := by
  rw [valueLe_iff (c := min e e') (by omega) (by omega), zpow_two_eq (c := min e e') (e := e)
    (by omega), zpow_two_eq (c := min e e') (e := e') (by omega), ← mul_assoc, ← mul_assoc,
    mul_le_mul_iff_left₀ (by positivity)]
  exact_mod_cast Iff.rfl

/-! ### Numbers below zero -/

theorem valueOf_neg (u : UnpackedFloat) : valueOf u.neg = -valueOf u := by
  cases u with
  | finite s m e hm =>
    cases s
    · show ((m : Int) : ℚ) * 2 ^ e = -(((-m : Int) : ℚ) * 2 ^ e)
      push_cast
      ring
    · show ((-m : Int) : ℚ) * 2 ^ e = -(((m : Int) : ℚ) * 2 ^ e)
      push_cast
      ring
  | _ => exact neg_zero.symm

theorem IsFinite.neg {u : UnpackedFloat} (h : IsFinite u) : IsFinite u.neg := by
  cases u <;> exact h

theorem Between.neg {lo hi : ℚ} {u : UnpackedFloat} (h : Between lo hi u) :
    Between (-hi) (-lo) u.neg := by
  refine ⟨h.finite.neg, ?_, ?_⟩
  · rw [valueOf_neg]
    exact neg_le_neg h.high
  · rw [valueOf_neg]
    exact neg_le_neg h.low

theorem IsExact.neg {q : ℚ} (h : IsExact q) : IsExact (-q) := by
  obtain ⟨u, hfinite, rfl⟩ := h
  exact ⟨u.neg, hfinite.neg, valueOf_neg u⟩

theorem roundWithAccuracy_negative (m : Nat) (e : Int) (a : Accuracy) :
    roundWithAccuracy Format.binary64 .negative m e a =
      (roundWithAccuracy Format.binary64 .positive m e a).neg := by
  rw [roundWithAccuracy_of_rounded .negative rfl, roundWithAccuracy_of_rounded .positive rfl,
    apply_dite UnpackedFloat.neg]
  rfl

/-! ### One rounding -/

variable {lo hi : ℚ}

/-- A positive double is one with a mantissa and an exponent. -/
theorem IsExact.exists_of_pos {q : ℚ} (h : IsExact q) (hq : 0 < q) :
    ∃ m e, Canonical m e ∧ e ≤ 971 ∧ q = m * 2 ^ e := by
  obtain ⟨u, hfinite, rfl⟩ := h
  match u, hfinite with
  | .zero _, _ => exact absurd hq (lt_irrefl _)
  | .finite .positive m e _, ⟨hcanonical, he⟩ => exact ⟨m, e, hcanonical, he, rfl⟩
  | .finite .negative m e _, _ =>
    refine absurd hq (not_lt.2 ?_)
    show ((-m : Int) : ℚ) * 2 ^ e ≤ 0
    push_cast
    rw [neg_mul]
    exact neg_nonpos.2 (by positivity)

/-- A positive number between two doubles is rounded to a double between them. -/
theorem round_positive_between (hlo : IsExact lo) (hhi : IsExact hi) {m : Nat} (hm : 0 < m)
    {e : Int} (hlow : lo ≤ m * 2 ^ e) (hhigh : m * 2 ^ e ≤ hi) :
    Between lo hi (UnpackedFloat.round Format.binary64 .positive m e) := by
  have hpos : (0 : ℚ) < m * 2 ^ e := by positivity
  obtain ⟨n, d, hn, hd, rfl⟩ := hhi.exists_of_pos (hpos.trans_le hhigh)
  -- from above: what is rounded is no more than the greater of the doubles
  have hround := round_spec .positive m hm e
  have habove : (∃ s, UnpackedFloat.round Format.binary64 .positive m e = .zero s) ∨
      ∃ f g hf, UnpackedFloat.round Format.binary64 .positive m e = .finite .positive f g hf ∧
        Canonical f g ∧ g ≤ 971 ∧ (f : ℚ) * 2 ^ g ≤ n * 2 ^ d := by
    rcases hround with heq | ⟨f, g, hf, heq, hfg, hbelow⟩
    · exact .inl ⟨_, heq⟩
    · have hle := hbelow n d hn (valueLe_iff_rat.2 hhigh)
      refine .inr ⟨f, g, hf, heq, hfg, ?_, valueLe_iff_rat.1 (hle.valueLe hfg hn)⟩
      unfold Below at hle
      omega
  -- from below: it is no less than the smaller one, if that is positive
  have hbelow : 0 < lo → ∀ s, UnpackedFloat.round Format.binary64 .positive m e ≠ .zero s ∧
      ∀ f g hf, Canonical f g →
        UnpackedFloat.round Format.binary64 .positive m e = .finite .positive f g hf →
        lo ≤ (f : ℚ) * 2 ^ g := by
    intro hlopos s
    obtain ⟨a, b, hab, -, rfl⟩ := hlo.exists_of_pos hlopos
    rcases round_atLeast hab hm (valueLe_iff_rat.2 hlow) with heq | ⟨f, g, hf, heq, hfg, hle⟩
    · refine ⟨by rw [heq]; exact fun h => (by cases h), fun f g hf _ h => ?_⟩
      rw [heq] at h
      cases h
    · refine ⟨by rw [heq]; exact fun h => (by cases h), fun f' g' hf' _ h => ?_⟩
      rw [heq] at h
      cases h
      exact valueLe_iff_rat.1 (hle.valueLe hab hfg)
  rcases habove with ⟨s, heq⟩ | ⟨f, g, hf, heq, hfg, hg, hle⟩
  · have hlole : lo ≤ 0 := not_lt.1 fun hlopos => (hbelow hlopos s).1 heq
    rw [heq]
    exact ⟨trivial, hlole, hpos.le.trans hhigh⟩
  · rw [heq]
    refine ⟨⟨hfg, hg⟩, ?_, hle⟩
    show lo ≤ (f : ℚ) * 2 ^ g
    rcases le_or_gt lo 0 with hlole | hlopos
    · exact hlole.trans (by positivity)
    · exact (hbelow hlopos .positive).2 f g hf hfg heq

/-- A number between two doubles is rounded to a double between them. -/
theorem round_between (hlo : IsExact lo) (hhi : IsExact hi) (s : Sign) {m : Nat} (hm : 0 < m)
    {e : Int} (hlow : lo ≤ s.apply m * 2 ^ e) (hhigh : s.apply m * 2 ^ e ≤ hi) :
    Between lo hi (UnpackedFloat.round Format.binary64 s m e) := by
  cases s with
  | positive => exact round_positive_between hlo hhi hm hlow hhigh
  | negative =>
    have hneg : UnpackedFloat.round Format.binary64 .negative m e =
        (UnpackedFloat.round Format.binary64 .positive m e).neg := roundWithAccuracy_negative _ _ _
    have hvalue : ((Sign.negative.apply m : Int) : ℚ) * 2 ^ e = -((m : ℚ) * 2 ^ e) := by
      show ((-m : Int) : ℚ) * 2 ^ e = _
      push_cast
      ring
    rw [hvalue] at hlow hhigh
    have h := (round_positive_between hhi.neg hlo.neg hm (by linarith) (by linarith)).neg
    rw [neg_neg, neg_neg] at h
    rwa [hneg]

theorem normalize_between (hlo : IsExact lo) (hhi : IsExact hi) {m e : Int}
    (hlow : lo ≤ m * 2 ^ e) (hhigh : m * 2 ^ e ≤ hi) (s : Sign) :
    Between lo hi (UnpackedFloat.normalize Format.binary64 m e s) := by
  unfold UnpackedFloat.normalize
  rcases Int.lt_trichotomy m 0 with hneg | rfl | hpos
  · rw [Int.compare_eq_lt.2 hneg]
    have hvalue : Sign.negative.apply ((-m).toNat : Nat) = m := by
      show -((-m).toNat : Int) = m
      omega
    exact round_between hlo hhi .negative (by omega) (by rwa [hvalue]) (by rwa [hvalue])
  · rw [Int.cast_zero, zero_mul] at hlow hhigh
    exact ⟨trivial, hlow, hhigh⟩
  · rw [Int.compare_eq_gt.2 hpos]
    have hvalue : Sign.positive.apply (m.toNat : Nat) = m := Int.toNat_of_nonneg hpos.le
    exact round_between hlo hhi .positive (by omega) (by rwa [hvalue]) (by rwa [hvalue])

/-! ### Sums, differences and products -/

section Unpacked

variable {u v : UnpackedFloat}

theorem add_unpacked_between (hlo : IsExact lo) (hhi : IsExact hi) (hu : IsFinite u)
    (hv : IsFinite v) (hlow : lo ≤ valueOf u + valueOf v) (hhigh : valueOf u + valueOf v ≤ hi) :
    Between lo hi (UnpackedFloat.add Format.binary64 u v) := by
  match u, v, hu, hv with
  | .zero s, .zero s', _, _ =>
    have hzero : ∃ t, UnpackedFloat.add Format.binary64 (.zero s) (.zero s') = .zero t := by
      cases s <;> cases s' <;> exact ⟨_, rfl⟩
    obtain ⟨t, ht⟩ := hzero
    have hsum : valueOf (.zero s) + valueOf (.zero s') = valueOf (.zero t) := add_zero _
    rw [ht]
    exact ⟨trivial, hlow.trans_eq hsum, hsum.symm.trans_le hhigh⟩
  | .zero _, .finite s m e hm, _, hv =>
    have hsum : valueOf (.zero .positive) + valueOf (.finite s m e hm) =
        valueOf (.finite s m e hm) := zero_add _
    exact ⟨hv, hlow.trans_eq hsum, hsum.symm.trans_le hhigh⟩
  | .finite s m e hm, .zero _, hu, _ =>
    have hsum : valueOf (.finite s m e hm) + valueOf (.zero .positive) =
        valueOf (.finite s m e hm) := add_zero _
    exact ⟨hu, hlow.trans_eq hsum, hsum.symm.trans_le hhigh⟩
  | .finite s m e hm, .finite s' m' e' hm', _, _ =>
    have hsum : ((s.apply (m <<< (e - min e e').toNat : Nat) +
        s'.apply (m' <<< (e' - min e e').toNat : Nat) : Int) : ℚ) * 2 ^ min e e' =
          valueOf (.finite s m e hm) + valueOf (.finite s' m' e' hm') := by
      rw [valueOf_finite s, valueOf_finite s', zpow_two_eq (c := min e e') (e := e) (by omega),
        zpow_two_eq (c := min e e') (e := e') (by omega), Nat.shiftLeft_eq, Nat.shiftLeft_eq,
        apply_mul, apply_mul]
      push_cast
      ring
    exact normalize_between hlo hhi (hsum ▸ hlow) (hsum ▸ hhigh) _

theorem sub_unpacked_eq (u v : UnpackedFloat) :
    UnpackedFloat.sub Format.binary64 u v = UnpackedFloat.add Format.binary64 u v.neg := by
  cases u <;> cases v <;> try rfl
  next s m e hm s' m' e' hm' =>
    cases s' with
    | positive => rfl
    | negative => exact congrArg (normalize _ · _ _) (Int.sub_neg ..)

theorem mul_unpacked_between (hlo : IsExact lo) (hhi : IsExact hi) (hu : IsFinite u)
    (hv : IsFinite v) (hlow : lo ≤ valueOf u * valueOf v) (hhigh : valueOf u * valueOf v ≤ hi) :
    Between lo hi (UnpackedFloat.mul Format.binary64 u v) := by
  match u, v, hu, hv with
  | .zero _, .zero _, _, _ =>
    exact ⟨trivial, hlow.trans_eq (zero_mul _), (zero_mul _).symm.trans_le hhigh⟩
  | .zero _, .finite _ _ _ _, _, _ =>
    exact ⟨trivial, hlow.trans_eq (zero_mul _), (zero_mul _).symm.trans_le hhigh⟩
  | .finite _ _ _ _, .zero _, _, _ =>
    exact ⟨trivial, hlow.trans_eq (mul_zero _), (mul_zero _).symm.trans_le hhigh⟩
  | .finite s m e hm, .finite s' m' e' hm', ⟨hcanonical, _⟩, ⟨hcanonical', _⟩ =>
    have hpos : 0 < m * m' := Nat.mul_pos hm hm'
    have hproduct : (((s * s').apply (m * m' : Nat) : Int) : ℚ) * 2 ^ (e + e') =
        valueOf (.finite s m e hm) * valueOf (.finite s' m' e' hm') := by
      rw [valueOf_finite s, valueOf_finite s', zpow_add₀ (by norm_num), apply_sign_mul]
      push_cast
      ring
    have hgrid : e + e' ≤ grid (m * m') (e + e') := by
      obtain ⟨-, hgrid⟩ := hcanonical
      obtain ⟨-, hgrid'⟩ := hcanonical'
      have hlog : m.log2 + m'.log2 ≤ (m * m').log2 := by
        rw [Nat.le_log2 (Nat.pos_iff_ne_zero.1 hpos), Nat.pow_add]
        exact Nat.mul_le_mul (pow_log2_le hm) (pow_log2_le hm')
      unfold grid at hgrid hgrid' ⊢
      omega
    have hround : UnpackedFloat.round Format.binary64 (s * s') (m * m') (e + e') =
        roundWithAccuracy Format.binary64 (s * s') (m * m') (e + e') .exact := by
      unfold UnpackedFloat.round decreaseExponent
      dsimp only
      rw [targetExponent_totalExponent, show (e + e' - grid (m * m') (e + e')).toNat = 0 by omega]
      simp
    show Between lo hi (roundWithAccuracy Format.binary64 (s * s') (m * m') (e + e') .exact)
    rw [← hround]
    exact round_between hlo hhi (s * s') hpos (hproduct ▸ hlow) (hproduct ▸ hhigh)

end Unpacked

/-! ### Doubles -/

/-- A finite double with a value between bounds. -/
def Within (lo hi : ℚ) (x : Float) : Prop := Between lo hi x.toModel.unpack

section Within

variable {x y : Float} {a b c d : ℚ}

theorem Within.mono (h : Within a b x) (hlow : lo ≤ a) (hhigh : b ≤ hi) : Within lo hi x :=
  ⟨h.finite, hlow.trans h.low, h.high.trans hhigh⟩

theorem Within.add (hx : Within a b x) (hy : Within c d y) (hlo : IsExact lo) (hhi : IsExact hi)
    (h : ∀ p q, a ≤ p ∧ p ≤ b → c ≤ q ∧ q ≤ d → lo ≤ p + q ∧ p + q ≤ hi) : Within lo hi (x + y) := by
  have hsum := h _ _ ⟨hx.low, hx.high⟩ ⟨hy.low, hy.high⟩
  have hbetween := add_unpacked_between hlo hhi hx.finite hy.finite hsum.1 hsum.2
  show Between lo hi (Float.Model.pack _).unpack
  rwa [hbetween.finite.unpack_pack]

theorem Within.sub (hx : Within a b x) (hy : Within c d y) (hlo : IsExact lo) (hhi : IsExact hi)
    (h : ∀ p q, a ≤ p ∧ p ≤ b → c ≤ q ∧ q ≤ d → lo ≤ p - q ∧ p - q ≤ hi) : Within lo hi (x - y) := by
  have hdifference := h _ _ ⟨hx.low, hx.high⟩ ⟨hy.low, hy.high⟩
  rw [sub_eq_add_neg, ← valueOf_neg] at hdifference
  have hbetween :=
    add_unpacked_between hlo hhi hx.finite hy.finite.neg hdifference.1 hdifference.2
  rw [← sub_unpacked_eq] at hbetween
  show Between lo hi (Float.Model.pack _).unpack
  rwa [hbetween.finite.unpack_pack]

theorem Within.mul (hx : Within a b x) (hy : Within c d y) (hlo : IsExact lo) (hhi : IsExact hi)
    (h : ∀ p q, a ≤ p ∧ p ≤ b → c ≤ q ∧ q ≤ d → lo ≤ p * q ∧ p * q ≤ hi) : Within lo hi (x * y) := by
  have hproduct := h _ _ ⟨hx.low, hx.high⟩ ⟨hy.low, hy.high⟩
  have hbetween := mul_unpacked_between hlo hhi hx.finite hy.finite hproduct.1 hproduct.2
  show Between lo hi (Float.Model.pack _).unpack
  rwa [hbetween.finite.unpack_pack]

end Within

end VisualNovel.Number

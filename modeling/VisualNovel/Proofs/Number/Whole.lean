import VisualNovel.Proofs.Number.Parts
import VisualNovel.Proofs.Number.Remaining

/-!
Whole numbers as doubles. A whole number below 2⁵³ has a double of its own, and so has the product
of two of them, which is then exact. A positive whole number is a positive double or infinite.
-/

namespace VisualNovel.Number

open Float.Model Float.Model.UnpackedFloat

/-! ### Magnitude bits -/

/-- Bits up to those of infinity are kept. -/
theorem toBits_ofMagnitudeBits (negative : Bool) {bits : Nat} (h : bits ≤ infinityBits) :
    (ofMagnitudeBits negative bits).toBits.toNat = if negative then 2 ^ 63 + bits else bits := by
  have hinf : infinityBits = 2047 * 2 ^ 52 := rfl
  have hpow : Nat.pow 2 63 = 2 ^ 63 := rfl
  have hvalue : (UInt64.ofNat (if negative then Nat.pow 2 63 + bits else bits)).toNat =
      if negative then 2 ^ 63 + bits else bits := by
    rw [UInt64.toNat_ofNat', hpow]
    split <;> omega
  generalize hword : UInt64.ofNat (if negative then Nat.pow 2 63 + bits else bits) = word at hvalue
  have hvalid : Format.binary64.Valid word.toBitVec := by
    refine ⟨fun hones hsome => ?_⟩
    have hexponent := congrArg BitVec.toNat hones
    have hall : (-(BitVec.ofNat Format.binary64.exponentBits 1)).toNat = 2047 := rfl
    have hmagnitude : word.toNat % 2 ^ 63 = _ := magnitude_eq word.toBitVec
    rw [hexponent, hall, hvalue] at hmagnitude
    refine absurd (BitVec.eq_of_toNat_eq ?_) hsome
    show (@unpackMantissa Format.binary64 word.toBitVec).toNat = 0
    split at hmagnitude <;> omega
  rw [← hvalue]
  show (Float.ofBits (UInt64.ofNat _)).toBits.toNat = _
  rw [hword]
  exact congrArg BitVec.toNat (pack_unpack hvalid)

theorem parts_ofMagnitudeBits (negative : Bool) {bits : Nat} (h : bits ≤ infinityBits) :
    parts (ofMagnitudeBits negative bits) =
      if bits < infinityBits then .finite negative (unitsOfBits bits) else .infinite negative := by
  have hinf : infinityBits = 2047 * 2 ^ 52 := rfl
  have hpow : Nat.pow 2 63 = 2 ^ 63 := rfl
  have hbits := toBits_ofMagnitudeBits negative h
  have hsign : decide (2 ^ 63 ≤ (ofMagnitudeBits negative bits).toBits.toNat) = negative := by
    rw [hbits]
    cases negative
    · exact decide_eq_false (by simp only [Bool.false_eq_true, if_false]; omega)
    · exact decide_eq_true (by simp only [if_true]; omega)
  have hmagnitude : (ofMagnitudeBits negative bits).toBits.toNat % 2 ^ 63 = bits := by
    rw [hbits]
    split <;> omega
  unfold parts
  dsimp only
  rw [hpow, hsign, hmagnitude]
  split
  · rfl
  · exact if_pos (by omega)

/-! ### Whole numbers -/

theorem two_pow_eq_unitsPerOne {k : Nat} (h : k = 1074) : 2 ^ k = unitsPerOne := by
  unfold unitsPerOne
  rw [← h]
  rfl

theorem log2_le_of_lt {n : Nat} (hpos : 0 < n) (h : n < 2 ^ 53) : n.log2 ≤ 52 :=
  Nat.le_of_lt_succ ((Nat.log2_lt (Nat.pos_iff_ne_zero.1 hpos)).2 h)

/-- A whole number that takes at most 53 bits, as magnitude bits. -/
theorem unitsOfBits_whole {n : Nat} (hpos : 0 < n) (hlt : n < 2 ^ 53) :
    ∃ bits < infinityBits, unitsOfBits bits = n * unitsPerOne := by
  have hinf : infinityBits = 2047 * 2 ^ 52 := rfl
  have hlog := log2_le_of_lt hpos hlt
  have hlead := log2_mul_two_pow hpos (52 - n.log2)
  rw [Nat.add_sub_cancel' hlog] at hlead
  have hne : n * 2 ^ (52 - n.log2) ≠ 0 :=
    Nat.pos_iff_ne_zero.1 (Nat.mul_pos hpos (Nat.two_pow_pos _))
  obtain ⟨hlow, hhigh⟩ := (Nat.log2_eq_iff hne).1 hlead
  obtain ⟨f, hf⟩ : ∃ f, n * 2 ^ (52 - n.log2) = 2 ^ 52 + f := ⟨_, (Nat.add_sub_cancel' hlow).symm⟩
  refine ⟨(n.log2 + 1023) * 2 ^ 52 + f, by omega, ?_⟩
  rw [unitsOfBits_normal (by omega) (by omega), ← hf, Nat.mul_assoc, ← Nat.pow_add,
    two_pow_eq_unitsPerOne (by omega)]

theorem unitsOfBits_pos {bits : Nat} (h : 0 < bits) : 0 < unitsOfBits bits := by
  unfold unitsOfBits
  dsimp only
  split
  · exact h
  · exact Nat.mul_pos (Nat.add_pos_left (Nat.two_pow_pos 52) _) (Nat.two_pow_pos _)

theorem nearestBits_pos {n : Nat} (h : 0 < n) : 0 < nearestBits n 1 := by
  have hinf : 0 < infinityBits := by decide
  have hone : (n * unitsPerOne).log2 = n.log2 + 1074 := by
    rw [← two_pow_eq_unitsPerOne rfl, log2_mul_two_pow h]
  unfold nearestBits
  dsimp only
  rw [Nat.div_one, hone]
  refine Nat.lt_min.2 ⟨Nat.add_pos_left (Nat.mul_pos ?_ (Nat.two_pow_pos 52)) _, hinf⟩
  omega

/-- A whole number that takes at most 53 bits is a double. -/
theorem parts_ofInt {n : Int} (h : n.natAbs < 2 ^ 53) :
    parts (ofInt n) = .finite (n < 0) (n.natAbs * unitsPerOne) := by
  have hbits : ∃ bits < infinityBits, nearestBits n.natAbs 1 = bits ∧
      unitsOfBits bits = n.natAbs * unitsPerOne := by
    rcases Nat.eq_zero_or_pos n.natAbs with hzero | hpos
    · rw [hzero, Nat.zero_mul]
      exact ⟨0, by decide, nearestBits_zero Nat.one_pos, by decide⟩
    · obtain ⟨bits, hlt, hunits⟩ := unitsOfBits_whole hpos h
      refine ⟨bits, hlt, ?_, hunits⟩
      rw [← nearestBits_mul_right _ _ unitsPerOne_pos, Nat.one_mul, ← hunits]
      exact nearestBits_unitsOfBits hlt
  obtain ⟨bits, hlt, hnearest, hunits⟩ := hbits
  unfold ofInt nearest
  rw [hnearest, parts_ofMagnitudeBits _ (Nat.le_of_lt hlt), if_pos hlt, hunits]

/-- A positive whole number is a positive double, or infinite. -/
theorem parts_ofInt_of_pos {n : Int} (h : 0 < n) :
    parts (ofInt n) = .infinite false ∨ ∃ units, 0 < units ∧ parts (ofInt n) = .finite false units := by
  have hsign : decide (n < 0) = false := decide_eq_false (by omega)
  have hle : nearestBits n.natAbs 1 ≤ infinityBits := Nat.min_le_right _ _
  unfold ofInt nearest
  rw [hsign, parts_ofMagnitudeBits false hle]
  split
  · exact .inr ⟨_, unitsOfBits_pos (nearestBits_pos (by omega)), rfl⟩
  · exact .inl rfl

/-! ### Products -/

/-- The unpacked form of a whole number below 2⁵³. -/
theorem canonical_whole {a : Nat} (ha : 0 < a) (hlt : a < 2 ^ 53) :
    Canonical (a * 2 ^ (52 - a.log2)) ((a.log2 : Int) - 52) := by
  have hlog := log2_le_of_lt ha hlt
  refine ⟨Nat.mul_pos ha (Nat.two_pow_pos _), ?_⟩
  unfold grid
  rw [log2_mul_two_pow ha]
  omega

theorem mul_unpack_whole {a : Nat} (hlt : a.log2 ≤ 52) :
    a * 2 ^ (52 - a.log2) * 2 ^ ((a.log2 : Int) - 52 + 1074).toNat = a * unitsPerOne := by
  rw [Nat.mul_assoc, ← Nat.pow_add, two_pow_eq_unitsPerOne (by omega)]

theorem unpack_of_whole {x : Float} {negative : Bool} {a : Nat}
    (h : parts x = .finite negative (a * unitsPerOne)) (ha : 0 < a) (hlt : a < 2 ^ 53) :
    ∃ s hpos, isNegative s = negative ∧ x.toModel.unpack =
      .finite s (a * 2 ^ (52 - a.log2)) ((a.log2 : Int) - 52) hpos := by
  have hlog := log2_le_of_lt ha hlt
  have hcanonical : IsCanonical x.toModel.unpack := unpack_canonical _
  rw [parts_eq] at h
  generalize x.toModel.unpack = u at h hcanonical
  cases u with
  | infinity s => cases h
  | notANumber => cases h
  | zero s =>
    have hzero : 0 = a * unitsPerOne := (Parts.finite.inj h).2
    exact absurd hzero (Nat.ne_of_lt (Nat.mul_pos ha unitsPerOne_pos))
  | finite s m e hpos =>
    obtain ⟨hsign, hunits⟩ := Parts.finite.inj h
    rw [← mul_unpack_whole hlog] at hunits
    obtain ⟨rfl, rfl⟩ := canonical_injective hcanonical (canonical_whole ha hlt) hunits
    exact ⟨s, hpos, hsign, rfl⟩

/-- A whole number below 2⁵³ is rounded to itself, however it is scaled. -/
theorem round_whole (s : Sign) {c m : Nat} {e : Int} (hc : 0 < c) (hlt : c < 2 ^ 53)
    (hm : m = c * 2 ^ (-e).toNat) (he : e ≤ (c.log2 : Int) - 52) :
    ∃ hpos, roundWithAccuracy Format.binary64 s m e .exact =
      .finite s (c * 2 ^ (52 - c.log2)) ((c.log2 : Int) - 52) hpos := by
  have hlog := log2_le_of_lt hc hlt
  have hgrid : grid m e = (c.log2 : Int) - 52 := by
    unfold grid
    rw [hm, log2_mul_two_pow hc]
    omega
  have hsplit : m = c * 2 ^ (52 - c.log2) * 2 ^ (grid m e - e).toNat := by
    rw [hgrid, hm, Nat.mul_assoc, ← Nat.pow_add]
    congr 2
    omega
  have hshifted : shifted m e = c * 2 ^ (52 - c.log2) := by
    unfold shifted
    exact Nat.div_eq_of_eq_mul_left (Nat.two_pow_pos _) hsplit
  have hraised : raised m e = (c.log2 : Int) - 52 := by
    unfold raised
    omega
  obtain ⟨r, hlow, -, hceil, heq⟩ := round_exact_eq s m e
  obtain rfl : r = c * 2 ^ (52 - c.log2) :=
    Nat.le_antisymm (hceil _ (Nat.le_of_eq hsplit)) (hshifted ▸ hlow)
  have hfits : (c * 2 ^ (52 - c.log2)).log2 ≤ 52 := by
    rw [log2_mul_two_pow hc]
    omega
  obtain ⟨hsame, hsame'⟩ := shift_of_fits (g := (c.log2 : Int) - 52) hfits (by omega)
  have hpos : 0 < c * 2 ^ (52 - c.log2) := Nat.mul_pos hc (Nat.two_pow_pos _)
  refine ⟨hpos, heq.trans ?_⟩
  rw [hraised, dif_neg (by rw [hsame]; omega)]
  exact finite_congr s hsame hsame'

theorem isNegative_mul (s s' : Sign) :
    isNegative (s * s') = (isNegative s != isNegative s') := by
  cases s <;> cases s' <;> rfl

/-- What a double of finite parts unpacks as. -/
theorem unpack_of_parts {x : Float} {negative : Bool} {units : Nat}
    (h : parts x = .finite negative units) :
    ∃ s, isNegative s = negative ∧ (units = 0 ∧ x.toModel.unpack = .zero s ∨
      ∃ m e hpos, units = m * 2 ^ (e + 1074).toNat ∧ x.toModel.unpack = .finite s m e hpos) := by
  rw [parts_eq] at h
  generalize x.toModel.unpack = u at h
  cases u with
  | infinity s => cases h
  | notANumber => cases h
  | zero s =>
    obtain ⟨hsign, hunits⟩ := Parts.finite.inj h
    exact ⟨s, hsign, .inl ⟨hunits.symm, rfl⟩⟩
  | finite s m e hpos =>
    obtain ⟨hsign, hunits⟩ := Parts.finite.inj h
    exact ⟨s, hsign, .inr ⟨m, e, hpos, hunits.symm, rfl⟩⟩

/-- Nothing times a finite double is nothing. -/
theorem parts_mul_zero {x y : Float} {negative negative' : Bool} {units units' : Nat}
    (hx : parts x = .finite negative units) (hy : parts y = .finite negative' units')
    (hzero : units = 0 ∨ units' = 0) : parts (x * y) = .finite (negative != negative') 0 := by
  obtain ⟨s, rfl, hs⟩ := unpack_of_parts hx
  obtain ⟨s', rfl, hs'⟩ := unpack_of_parts hy
  rw [← isNegative_mul, parts_eq]
  show partsOf (Float.Model.pack (UnpackedFloat.mul Format.binary64 x.toModel.unpack
    y.toModel.unpack)).unpack = _
  have hpack (t : Sign) : partsOf (Float.Model.pack (.zero t)).unpack = .finite (isNegative t) 0 := by
    cases t <;> rfl
  have hne {m : Nat} {e : Int} (hpos : 0 < m) : m * 2 ^ (e + 1074).toNat ≠ 0 :=
    Nat.pos_iff_ne_zero.1 (Nat.mul_pos hpos (Nat.two_pow_pos _))
  rcases hs with ⟨-, hx⟩ | ⟨m, e, hpos, hunits, hx⟩ <;>
    rcases hs' with ⟨-, hy⟩ | ⟨m', e', hpos', hunits', hy⟩ <;> rw [hx, hy]
  · exact hpack _
  · exact hpack _
  · exact hpack _
  · rcases hzero with rfl | rfl
    · exact absurd hunits.symm (hne hpos)
    · exact absurd hunits'.symm (hne hpos')

/-- The product of whole numbers is exact below 2⁵³. -/
theorem parts_mul_whole {x y : Float} {negative negative' : Bool} {a b : Nat}
    (hx : parts x = .finite negative (a * unitsPerOne))
    (hy : parts y = .finite negative' (b * unitsPerOne)) (hlt : a * b < 2 ^ 53) :
    parts (x * y) = .finite (negative != negative') (a * b * unitsPerOne) := by
  rcases Nat.eq_zero_or_pos (a * b) with hzero | hc
  · have hnone : a * unitsPerOne = 0 ∨ b * unitsPerOne = 0 := by
      rcases Nat.mul_eq_zero.1 hzero with ha0 | hb0
      · exact .inl (by rw [ha0, Nat.zero_mul])
      · exact .inr (by rw [hb0, Nat.zero_mul])
    rw [hzero, Nat.zero_mul]
    exact parts_mul_zero hx hy hnone
  have hapos : 0 < a := Nat.pos_of_mul_pos_right hc
  have hbpos : 0 < b := Nat.pos_of_mul_pos_left hc
  have ha : a < 2 ^ 53 := Nat.lt_of_le_of_lt (Nat.le_mul_of_pos_right a hbpos) hlt
  have hb : b < 2 ^ 53 := Nat.lt_of_le_of_lt (Nat.le_mul_of_pos_left b hapos) hlt
  have hloga := log2_le_of_lt hapos ha
  have hlogb := log2_le_of_lt hbpos hb
  obtain ⟨s, hpos, rfl, hxunpack⟩ := unpack_of_whole hx hapos ha
  obtain ⟨s', hpos', rfl, hyunpack⟩ := unpack_of_whole hy hbpos hb
  have hlog : a.log2 ≤ (a * b).log2 := (Nat.le_log2 (Nat.pos_iff_ne_zero.1 hc)).2
    (Nat.le_trans (pow_log2_le hapos) (Nat.le_mul_of_pos_right a hbpos))
  obtain ⟨hround, heq⟩ := round_whole (s * s') hc hlt
    (m := a * 2 ^ (52 - a.log2) * (b * 2 ^ (52 - b.log2)))
    (e := ((a.log2 : Int) - 52) + ((b.log2 : Int) - 52))
    (by
      rw [Nat.mul_mul_mul_comm, ← Nat.pow_add]
      congr 2
      omega) (by omega)
  rw [← isNegative_mul, parts_eq]
  show partsOf (Float.Model.pack (UnpackedFloat.mul Format.binary64 x.toModel.unpack
    y.toModel.unpack)).unpack = _
  rw [hxunpack, hyunpack]
  show partsOf (Float.Model.pack (roundWithAccuracy Format.binary64 _ _ _ .exact)).unpack = _
  rw [heq]
  show partsOf (UnpackedFloat.unpack Format.binary64 (UnpackedFloat.pack Format.binary64 _)) = _
  rcases unpack_pack_finite (s * s') hround (canonical_whole hc hlt) with hsame | ⟨hlarge, -⟩
  · rw [hsame]
    exact congrArg _ (mul_unpack_whole (log2_le_of_lt hc hlt))
  · have := log2_le_of_lt hc hlt
    omega

/-- Doubles of the same parts have the same products. -/
theorem mul_congr_of_parts_eq (w : Float) {x y : Float} (h : parts x = parts y) :
    w * x = w * y := by
  rw [parts_eq, parts_eq] at h
  have hunpack : x.toModel.unpack = y.toModel.unpack :=
    partsOf_injective (unpack_canonical _) (unpack_canonical _) h
  show Float.ofModel (Float.Model.pack (UnpackedFloat.mul Format.binary64 w.toModel.unpack
    x.toModel.unpack)) = Float.ofModel (Float.Model.pack (UnpackedFloat.mul Format.binary64
      w.toModel.unpack y.toModel.unpack))
  rw [hunpack]

/-- Doubles of the same value have the same parts, unless they are zeros. -/
theorem parts_eq_or_zero {x y : Float} (h : (parts x).Same (parts y)) :
    parts x = parts y ∨ isEqualTo x 0 ∧ isEqualTo y 0 := by
  unfold isEqualTo
  cases hx : parts x <;> cases hy : parts y <;> rw [hx, hy] at h <;> simp only [Parts.Same] at h
  · exact .inl (congrArg _ h)
  · obtain ⟨rfl, rfl | rfl⟩ := h
    · exact .inr (by simp)
    · exact .inl rfl

theorem exists_of_isEqualTo {x : Float} {n : Int} (h : isEqualTo x n) :
    ∃ negative, parts x = .finite negative (n.natAbs * unitsPerOne) ∧
      (n = 0 ∨ negative = decide (n < 0)) := by
  unfold isEqualTo at h
  split at h
  · next negative units hparts =>
    simp only [Bool.and_eq_true, Bool.or_eq_true, decide_eq_true_eq] at h
    obtain ⟨hunits, hsign⟩ := h
    rw [hunits] at hparts hsign
    refine ⟨negative, hparts, hsign.imp_left fun hzero => ?_⟩
    exact Int.natAbs_eq_zero.1 ((Nat.mul_eq_zero.1 hzero).resolve_right unitsPerOne_pos.ne')
  · cases h

/-- A length times a double that is a whole number is the product, as long as both take at most 53
    bits. -/
theorem truncate_mul_whole {w n : Int} {x : Float} (hx : isEqualTo x n) (hw : w.natAbs < 2 ^ 53)
    (hlt : (w * n).natAbs < 2 ^ 53) : truncate (ofInt w * x) = .ok (w * n) := by
  obtain ⟨negative, hparts, hsign⟩ := exists_of_isEqualTo hx
  rw [Int.natAbs_mul] at hlt
  have hproduct := parts_mul_whole (parts_ofInt hw) hparts hlt
  unfold truncate
  rw [hproduct]
  dsimp only
  rw [Nat.mul_div_cancel _ unitsPerOne_pos, Int.natCast_mul]
  refine congrArg Except.ok ?_
  rcases hsign with rfl | rfl
  · simp
  rcases Int.lt_or_le w 0 with hwneg | hwpos <;> rcases Int.lt_or_le n 0 with hnneg | hnpos
  · simp [hwneg, hnneg, abs_of_neg]
  · simp [hwneg, hnpos.not_gt, abs_of_neg, abs_of_nonneg, hnpos]
  · simp [hwpos.not_gt, hnneg, abs_of_neg, abs_of_nonneg, hwpos]
  · simp [hwpos.not_gt, hnpos.not_gt, abs_of_nonneg, hwpos, hnpos]

end VisualNovel.Number

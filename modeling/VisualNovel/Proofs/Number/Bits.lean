import VisualNovel.Proofs.Number.Unpacked

/-!
Doubles and their bits. A double is determined by its bits, and what compares equal to it are the
doubles with the same bits and, for a zero, the other zero.
-/

namespace VisualNovel.Number

open Float.Model Float.Model.UnpackedFloat

theorem toBitVec_ofBitVec (v : BitVec 1) : (Sign.ofBitVec v).toBitVec = v := by
  revert v
  decide

/-- A number is made of its three parts. -/
theorem packComponents_unpack (b : BitVec Format.binary64.numBits) :
    packComponents Format.binary64 (Sign.ofBitVec (unpackSign b)) (unpackExponent b)
      (unpackMantissa b) = b := by
  ext i hi
  rw [← BitVec.getLsbD_eq_getElem, ← BitVec.getLsbD_eq_getElem]
  delta unpackSign
  simp only [packComponents, toBitVec_ofBitVec, unpackExponent, unpackMantissa,
    BitVec.getLsbD_append, BitVec.getLsbD_cast, BitVec.extractLsb, BitVec.getLsbD_extractLsb']
  split
  · next h =>
    have hlt : i < 52 := by simpa using h
    simp [hlt]
  · next h =>
    have hge : 52 ≤ i := by simpa using h
    split
    · next h' =>
      have hlt : i - 52 < 11 := by simpa using h'
      simp [hlt, Nat.add_sub_cancel' hge]
    · next h' =>
      have hge' : 11 ≤ i - 52 := by simpa using h'
      have hi' : i = 63 := by
        have hbits : Format.binary64.numBits = 64 := rfl
        omega
      subst hi'
      simp

/-- A subnormal number is packed with its mantissa as it is. -/
theorem pack_subnormal (s : Sign) {m : BitVec Format.binary64.mantissaBitsWithoutImplicit}
    (hm : 0 < m.toNat) :
    UnpackedFloat.pack Format.binary64 (.finite s m.toNat (-1074) hm) =
      packComponents Format.binary64 s 0#_ m := by
  have hlt : m.toNat < 2 ^ 52 := m.isLt
  have hlog := (Nat.log2_lt (Nat.pos_iff_ne_zero.1 hm)).2 hlt
  unfold UnpackedFloat.pack
  dsimp only
  rw [if_neg (by decide), if_neg, BitVec.ofNat_toNat, BitVec.setWidth_eq]
  have hbits : Format.binary64.mantissaBits = 53 := rfl
  omega

/-- A normal number is packed without its leading bit. -/
theorem pack_normal (s : Sign) {e : BitVec Format.binary64.exponentBits}
    {m : BitVec Format.binary64.mantissaBitsWithoutImplicit} (he : e ≠ -1#_)
    (hpos : 0 < (1#1 ++ m).toNat) :
    UnpackedFloat.pack Format.binary64 (.finite s (1#1 ++ m).toNat ((e.toNat : Int) - 1075) hpos) =
      packComponents Format.binary64 s e m := by
  have hlt : m.toNat < 2 ^ 52 := m.isLt
  have hlt' : e.toNat < 2 ^ 11 := e.isLt
  have hvalue := toNat_lead_append m
  have hlog : (1#1 ++ m).toNat.log2 = 52 := by
    rw [hvalue]
    exact (Nat.log2_eq_iff (by omega)).2 ⟨by omega, by omega⟩
  have hnotones : e.toNat ≠ 2047 := fun h => he (BitVec.eq_of_toNat_eq h)
  have hbias : (Format.binary64.exponentBias : Int) = 1023 := rfl
  have hmbits : (Format.binary64.mantissaBitsWithoutImplicit : Int) = 52 := rfl
  have hexponent : ((e.toNat : Int) - 1075 + Format.binary64.exponentBias +
      Format.binary64.mantissaBitsWithoutImplicit).toNat = e.toNat := by
    rw [hbias, hmbits]
    omega
  unfold UnpackedFloat.pack
  dsimp only
  rw [hexponent, hlog, if_neg, if_pos (show 52 + 1 = Format.binary64.mantissaBits from rfl),
    BitVec.ofNat_toNat, BitVec.setWidth_eq]
  · congr 1
    refine BitVec.eq_of_toNat_eq ?_
    rw [BitVec.toNat_ofNat, hvalue]
    show (2 ^ 52 + m.toNat) % 2 ^ 52 = m.toNat
    omega
  · have hebits : 2 ^ Format.binary64.exponentBits = 2048 := rfl
    omega

/-- Unpacking loses nothing. -/
theorem pack_unpack {b : BitVec Format.binary64.numBits} (hb : Format.binary64.Valid b) :
    UnpackedFloat.pack Format.binary64 (UnpackedFloat.unpack Format.binary64 b) = b := by
  have hnan := hb.eq_packedNaN
  have hparts := packComponents_unpack b
  generalize Sign.ofBitVec (unpackSign b) = s at hparts
  generalize unpackExponent b = e at hparts hnan
  generalize unpackMantissa b = m at hparts hnan
  subst hparts
  rw [unpack_packComponents]
  by_cases hones : e = -1#_
  · rw [if_pos hones]
    subst hones
    by_cases hzero : m = 0#_
    · rw [if_pos hzero]
      subst hzero
      rfl
    · rw [if_neg hzero]
      exact (hnan rfl hzero).symm
  rw [if_neg hones]
  by_cases hsubnormal : e = 0#_
  · rw [if_pos hsubnormal]
    subst hsubnormal
    by_cases hzero : m = 0#_
    · rw [dif_pos hzero]
      subst hzero
      rfl
    · rw [dif_neg hzero]
      exact pack_subnormal s _
  · rw [if_neg hsubnormal]
    exact pack_normal s hones _

/-- A double is the one with its bits. -/
theorem ofBits_toBits (x : Float) : Float.ofBits x.toBits = x := by
  obtain ⟨bits, hvalid⟩ := x
  show Float.ofModel (Float.Model.ofBits bits) = _
  congr 1
  unfold Float.Model.ofBits Float.Model.pack
  congr 1
  rw [pack_unpack hvalid]

/-- A finite double is made of its sign and its magnitude bits. -/
theorem of_parts_eq_finite {x : Float} {negative : Bool} {units : Nat}
    (h : parts x = .finite negative units) :
    ∃ bits < infinityBits, x.toBits.toNat % Nat.pow 2 63 = bits ∧ unitsOfBits bits = units ∧
      x = ofMagnitudeBits negative bits := by
  have hlt : x.toBits.toNat < 2 ^ 64 := x.toBits.toNat_lt
  unfold parts at h
  dsimp only at h
  split at h
  · next hfinite =>
    cases h
    refine ⟨_, hfinite, rfl, rfl, ?_⟩
    unfold ofMagnitudeBits
    have hbits : (if decide (Nat.pow 2 63 ≤ x.toBits.toNat) = true then
        Nat.pow 2 63 + x.toBits.toNat % Nat.pow 2 63 else x.toBits.toNat % Nat.pow 2 63) =
        x.toBits.toNat := by
      have hpow : Nat.pow 2 63 = 2 ^ 63 := rfl
      rw [hpow]
      simp only [decide_eq_true_eq]
      split <;> omega
    rw [hbits, UInt64.ofNat_toNat, ofBits_toBits]
  · split at h <;> cases h

theorem unpackExponent_toNat (b : BitVec Format.binary64.numBits) :
    (unpackExponent b).toNat = b.toNat / 2 ^ 52 % 2 ^ 11 := by
  simp [unpackExponent, BitVec.extractLsb, Nat.shiftRight_eq_div_pow]

/-- A finite double is a number. -/
theorem unpack_ne_notANumber {x : Float} {negative : Bool} {units : Nat}
    (h : parts x = .finite negative units) : x.toModel.unpack ≠ .notANumber := by
  obtain ⟨bits, hbits, hmagnitude, -, -⟩ := of_parts_eq_finite h
  have hexponent := unpackExponent_toNat x.toBits.toBitVec
  have hne : @unpackExponent Format.binary64 x.toBits.toBitVec ≠
      -(BitVec.ofNat Format.binary64.exponentBits 1) := by
    intro heq
    have hall : (-(BitVec.ofNat Format.binary64.exponentBits 1)).toNat = 2047 := rfl
    have htoNat : x.toBits.toBitVec.toNat = x.toBits.toNat := rfl
    have hpow : Nat.pow 2 63 = 2 ^ 63 := rfl
    have hinf : infinityBits = 2047 * 2 ^ 52 := rfl
    rw [heq, hall, htoNat] at hexponent
    rw [hpow] at hmagnitude
    omega
  intro hnan
  have hunpacks : Unpacks x.toBits.toBitVec x.toModel.unpack := unpacks x.toBits.toBitVec
  rw [hnan] at hunpacks
  cases hunpacks with
  | notANumber hones => exact hne hones

theorem compare_self {u : UnpackedFloat} (h : u ≠ .notANumber) : u.compare u = some .eq := by
  cases u with
  | infinity s => cases s <;> rfl
  | notANumber => exact absurd rfl h
  | zero s => cases s <;> rfl
  | finite s m e hm =>
    have hsame : (compare e e).then (compare m m) = .eq := by
      rw [Int.compare_eq_eq.2 rfl]
      exact Nat.compare_eq_eq.2 rfl
    cases s with
    | positive => exact congrArg some hsame
    | negative => exact congrArg (fun o => some o.swap) hsame

/-- A finite double equals itself. -/
theorem beq_self_of_finite {x : Float} {negative : Bool} {units : Nat}
    (h : parts x = .finite negative units) : x == x := by
  show x.toModel.unpack.compare x.toModel.unpack == some .eq
  rw [compare_self (unpack_ne_notANumber h)]
  rfl

/-- A double without a magnitude is a zero. -/
theorem eq_zero_of_units_eq_zero {x : Float} {negative : Bool} (h : parts x = .finite negative 0) :
    x = ofMagnitudeBits negative 0 := by
  obtain ⟨bits, -, -, hunits, heq⟩ := of_parts_eq_finite h
  have hzero : bits = 0 := by
    unfold unitsOfBits at hunits
    dsimp only at hunits
    split at hunits
    · exact hunits
    · have hlead : 0 < Nat.pow 2 52 + bits % Nat.pow 2 52 := Nat.add_pos_left (by decide) _
      exact absurd hunits (Nat.pos_iff_ne_zero.1 (Nat.mul_pos hlead (Nat.two_pow_pos _)))
  rw [heq, hzero]

/-- The two zeros are equal. -/
theorem zero_beq_zero (negative : Bool) : ofMagnitudeBits negative 0 == ofMagnitudeBits false 0 := by
  cases negative <;> decide

end VisualNovel.Number

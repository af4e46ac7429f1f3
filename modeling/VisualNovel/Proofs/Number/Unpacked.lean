import VisualNovel.Proofs.Number.Rounding

/-!
Doubles and their unpacked form. What is unpacked is canonical, and what is canonical survives
packing unless it is too large for a double, which makes it infinite.
-/

namespace VisualNovel.Number

open Float.Model Float.Model.UnpackedFloat

/-- A finite number is on the grid of its size. -/
def IsCanonical : UnpackedFloat → Prop
  | .finite _ m e _ => Canonical m e
  | _ => True

theorem unpackSign_packComponents {spec : Format} (s : Sign) (exponent : BitVec spec.exponentBits)
    (mantissa : BitVec spec.mantissaBitsWithoutImplicit) :
    unpackSign (packComponents spec s exponent mantissa) = s.toBitVec := by
  ext i hi
  delta unpackSign
  simp only [packComponents, BitVec.getElem_cast, BitVec.extractLsb, BitVec.getElem_extractLsb',
    BitVec.getLsbD_append]
  rw [if_neg (by omega), if_neg (by omega), ← BitVec.getLsbD_eq_getElem]
  congr 1
  omega

theorem sign_ofBitVec_toBitVec (s : Sign) : Sign.ofBitVec s.toBitVec = s := by
  cases s <;> rfl

/-- The mantissa of a normal number, with its leading bit. -/
theorem toNat_lead_append (v : BitVec Format.binary64.mantissaBitsWithoutImplicit) :
    (1#1 ++ v).toNat = 2 ^ 52 + v.toNat := by
  have hlt : v.toNat < 2 ^ 52 := v.isLt
  have hor := Nat.two_pow_add_eq_or_of_lt hlt 1
  rw [Nat.mul_one] at hor
  rw [BitVec.toNat_append]
  show 1 <<< 52 ||| _ = _
  rw [Nat.shiftLeft_eq, Nat.one_mul]
  exact hor.symm

/-- What a number with these bits is. Exponents of all ones are special. -/
inductive Unpacks (b : BitVec Format.binary64.numBits) : UnpackedFloat → Prop
  | infinity : unpackExponent b = -1#_ → Unpacks b (.infinity (Sign.ofBitVec (unpackSign b)))
  | notANumber : unpackExponent b = -1#_ → Unpacks b .notANumber
  | zero : Unpacks b (.zero (Sign.ofBitVec (unpackSign b)))
  | subnormal (hpos : 0 < (unpackMantissa b).toNat) : Unpacks b
      (.finite (Sign.ofBitVec (unpackSign b)) (unpackMantissa b).toNat (-1074) hpos)
  | normal (hones : unpackExponent b ≠ -1#_) (hzero : unpackExponent b ≠ 0#_)
      (hpos : 0 < (1#1 ++ unpackMantissa b).toNat) : Unpacks b
      (.finite (Sign.ofBitVec (unpackSign b)) (1#1 ++ unpackMantissa b).toNat
        (((unpackExponent b).toNat : Int) - 1075) hpos)

theorem unpacks (b : BitVec Format.binary64.numBits) :
    Unpacks b (UnpackedFloat.unpack Format.binary64 b) := by
  unfold UnpackedFloat.unpack
  dsimp only
  by_cases hones : unpackExponent b = -1#_
  · rw [if_pos hones]
    split
    · exact .infinity hones
    · exact .notANumber hones
  rw [if_neg hones]
  by_cases hzero : unpackExponent b = 0#_
  · rw [if_pos hzero]
    by_cases hmantissa : unpackMantissa b = 0#_
    · rw [dif_pos hmantissa]
      exact .zero
    · rw [dif_neg hmantissa, hzero]
      exact .subnormal _
  · rw [if_neg hzero]
    exact .normal hones hzero _

theorem unpack_canonical (b : BitVec Format.binary64.numBits) :
    IsCanonical (UnpackedFloat.unpack Format.binary64 b) := by
  have h := unpacks b
  generalize UnpackedFloat.unpack Format.binary64 b = u at h ⊢
  cases h with
  | infinity _ | notANumber _ | zero => trivial
  | subnormal hpos =>
    have hlt : (unpackMantissa b).toNat < 2 ^ 52 := (unpackMantissa b).isLt
    have hlog := (Nat.log2_lt (Nat.pos_iff_ne_zero.1 hpos)).2 hlt
    refine ⟨hpos, ?_⟩
    unfold grid
    omega
  | normal hones hzero hpos =>
    have hlt : (unpackMantissa b).toNat < 2 ^ 52 := (unpackMantissa b).isLt
    have hvalue := toNat_lead_append (unpackMantissa b)
    have hlog : (1#1 ++ unpackMantissa b).toNat.log2 = 52 := by
      rw [hvalue]
      exact (Nat.log2_eq_iff (by omega)).2 ⟨by omega, by omega⟩
    have hexponent : 0 < (unpackExponent b).toNat := by
      simpa [BitVec.toNat_pos, BitVec.pos_iff_ne_zero] using hzero
    refine ⟨hpos, ?_⟩
    unfold grid
    rw [hlog]
    omega

/-- What the parts of a packed number unpack as, where they are none of a special value. -/
theorem unpack_packComponents (s : Sign) (exponent : BitVec Format.binary64.exponentBits)
    (mantissa : BitVec Format.binary64.mantissaBitsWithoutImplicit) :
    UnpackedFloat.unpack Format.binary64 (packComponents Format.binary64 s exponent mantissa) =
      if exponent = -1#_ then if mantissa = 0#_ then .infinity s else .notANumber
      else if exponent = 0#_ then
        if h : mantissa = 0#_ then .zero s
        else .finite s mantissa.toNat (-1074)
          (by simpa [BitVec.toNat_pos, BitVec.pos_iff_ne_zero] using h)
      else .finite s (1#1 ++ mantissa).toNat ((exponent.toNat : Int) - 1075)
        (by rw [toNat_lead_append]; omega) := by
  have hsign := sign_ofBitVec_toBitVec s
  rw [← unpackSign_packComponents s exponent mantissa] at hsign
  have hexponent :
      unpackExponent (packComponents Format.binary64 s exponent mantissa) = exponent :=
    unpackExponent_packComponents
  have hmantissa :
      unpackMantissa (packComponents Format.binary64 s exponent mantissa) = mantissa :=
    unpackMantissa_packComponents
  generalize packComponents Format.binary64 s exponent mantissa = b at hsign hexponent hmantissa ⊢
  subst hsign hexponent hmantissa
  unfold UnpackedFloat.unpack
  dsimp only
  by_cases hones : unpackExponent b = -1#_
  · exact (if_pos hones).trans (if_pos hones).symm
  · refine (if_neg hones).trans (Eq.trans ?_ (if_neg hones).symm)
    by_cases hzero : unpackExponent b = 0#_
    · refine (if_pos hzero).trans (Eq.trans ?_ (if_pos hzero).symm)
      rw [hzero]
      rfl
    · exact (if_neg hzero).trans (if_neg hzero).symm

theorem unpack_normal (s : Sign) {k m : Nat} (hk : 0 < k) (hk' : k < 2047) (hm : 2 ^ 52 ≤ m)
    (hlt : m < 2 ^ 53) (hpos : 0 < m) :
    UnpackedFloat.unpack Format.binary64 (packComponents Format.binary64 s
        (BitVec.ofNat Format.binary64.exponentBits k)
        (BitVec.ofNat Format.binary64.mantissaBitsWithoutImplicit m)) =
      .finite s m ((k : Int) - 1075) hpos := by
  have hexponent : (BitVec.ofNat Format.binary64.exponentBits k).toNat = k := by
    have hebits : 2 ^ Format.binary64.exponentBits = 2048 := rfl
    rw [BitVec.toNat_ofNat]
    exact Nat.mod_eq_of_lt (by omega)
  have hmantissa : (BitVec.ofNat Format.binary64.mantissaBitsWithoutImplicit m).toNat =
      m - 2 ^ 52 := by
    rw [BitVec.toNat_ofNat]
    show m % 2 ^ 52 = m - 2 ^ 52
    omega
  rw [unpack_packComponents, if_neg, if_neg]
  · apply finite_congr s
    · rw [toNat_lead_append, hmantissa]
      omega
    · rw [hexponent]
  · intro hzero
    have hcast := congrArg BitVec.toNat hzero
    rw [hexponent] at hcast
    exact absurd hcast (Nat.pos_iff_ne_zero.1 hk)
  · intro hones
    have hcast := congrArg BitVec.toNat hones
    rw [hexponent] at hcast
    have hall : (-(BitVec.ofNat Format.binary64.exponentBits 1)).toNat = 2047 := rfl
    omega

theorem unpack_subnormal (s : Sign) {m : Nat} (hlt : m < 2 ^ 52) (hpos : 0 < m) :
    UnpackedFloat.unpack Format.binary64 (packComponents Format.binary64 s 0#_
        (BitVec.ofNat Format.binary64.mantissaBitsWithoutImplicit m)) =
      .finite s m (-1074) hpos := by
  have hmantissa : (BitVec.ofNat Format.binary64.mantissaBitsWithoutImplicit m).toNat = m := by
    rw [BitVec.toNat_ofNat]
    exact Nat.mod_eq_of_lt hlt
  rw [unpack_packComponents, if_neg, if_pos rfl, dif_neg]
  · exact finite_congr s hmantissa rfl
  · intro hzero
    have hcast := congrArg BitVec.toNat hzero
    rw [hmantissa] at hcast
    exact absurd hcast (Nat.pos_iff_ne_zero.1 hpos)
  · decide

/-- Packing keeps a canonical number, unless it is too large. -/
theorem unpack_pack_finite (s : Sign) {m : Nat} {e : Int} (hm : 0 < m) (h : Canonical m e) :
    UnpackedFloat.unpack Format.binary64 (UnpackedFloat.pack Format.binary64 (.finite s m e hm)) =
        .finite s m e hm ∨
      971 < e ∧ UnpackedFloat.unpack Format.binary64
        (UnpackedFloat.pack Format.binary64 (.finite s m e hm)) = .infinity s := by
  obtain ⟨-, hgrid⟩ := h
  have hlog : m.log2 ≤ 52 ∧ -1074 ≤ e := by
    unfold grid at hgrid
    omega
  have hlt : m < 2 ^ 53 := (Nat.log2_lt (Nat.pos_iff_ne_zero.1 hm)).1 (by omega)
  have hpack : UnpackedFloat.pack Format.binary64 (.finite s m e hm) =
      if 2048 ≤ (e + 1023 + 52).toNat + 1 then packedInfinity Format.binary64 s
      else if m.log2 + 1 = 53 then
        packComponents Format.binary64 s
          (BitVec.ofNat Format.binary64.exponentBits (e + 1023 + 52).toNat)
          (BitVec.ofNat Format.binary64.mantissaBitsWithoutImplicit m)
      else
        packComponents Format.binary64 s 0#_
          (BitVec.ofNat Format.binary64.mantissaBitsWithoutImplicit m) := rfl
  rw [hpack]
  by_cases hlarge : 2048 ≤ (e + 1023 + 52).toNat + 1
  · right
    refine ⟨by omega, ?_⟩
    rw [if_pos hlarge]
    unfold packedInfinity
    rw [unpack_packComponents, if_pos rfl]
    exact if_pos rfl
  left
  rw [if_neg hlarge]
  by_cases hnormal : m.log2 + 1 = 53
  · have hge : 2 ^ 52 ≤ m := (by omega : m.log2 = 52) ▸ pow_log2_le hm
    rw [if_pos hnormal, unpack_normal s (by omega) (by omega) hge hlt hm]
    apply finite_congr s rfl
    omega
  · have hsmall : m.log2 < 52 ∧ e = -1074 := by
      unfold grid at hgrid
      omega
    have hlt52 : m < 2 ^ 52 := (Nat.log2_lt (Nat.pos_iff_ne_zero.1 hm)).1 hsmall.1
    rw [if_neg hnormal, unpack_subnormal s hlt52 hm]
    exact finite_congr s rfl hsmall.2.symm

end VisualNovel.Number

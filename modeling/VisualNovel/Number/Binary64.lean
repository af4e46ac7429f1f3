/-!
Doubles as whole numbers. The magnitude of a finite double is a multiple of the least positive
one, 2⁻¹⁰⁷⁴, so every question about its exact value is a question about a natural number, its
`units`. The inverse direction, `nearest`, rounds a quotient of naturals to the nearest double,
a tie to the one with the even last bit.
-/

namespace VisualNovel.Number

/-- A double taken apart: a finite one is its sign and its magnitude in units of 2⁻¹⁰⁷⁴. -/
inductive Parts where
  | nan
  | infinite (negative : Bool)
  | finite (negative : Bool) (units : Nat)
  deriving Repr, DecidableEq

/-- How many units make one. -/
def unitsPerOne : Nat := Nat.pow 2 1074

/-- The magnitude bits at and above which a double is no finite number. -/
def infinityBits : Nat := 2047 * Nat.pow 2 52

/-- The magnitude, in units, of the double with these exponent and fraction bits: a fraction
    below 2⁵² counts units itself, and from then on the unit doubles with each exponent. -/
def unitsOfBits (bits : Nat) : Nat :=
  let lead := Nat.pow 2 52
  if bits < lead then bits else (lead + bits % lead) * Nat.pow 2 (bits / lead - 1)

/-- A double taken apart. -/
def parts (x : Float) : Parts :=
  let bits := x.toBits.toNat
  let negative := Nat.pow 2 63 ≤ bits
  let magnitude := bits % Nat.pow 2 63
  if magnitude < infinityBits then .finite negative (unitsOfBits magnitude)
  else if magnitude = infinityBits then .infinite negative
  else .nan

/-- The quotient rounded to the nearest whole number, a half to the even one. -/
def roundDiv (num den : Nat) : Nat :=
  let q := num / den
  let twice := 2 * (num % den)
  if twice < den then q else if den < twice then q + 1 else q + q % 2

/-- The magnitude bits of the double nearest to a quotient. Above 2⁵³ units the grid of doubles
    has a spacing of `2 ^ k`; carrying into the exponent is the same addition as carrying within
    the fraction. -/
def nearestBits (num den : Nat) : Nat :=
  let scaled := num * unitsPerOne
  let k := Nat.log2 (scaled / den) - 52
  min (k * Nat.pow 2 52 + roundDiv scaled (den * Nat.pow 2 k)) infinityBits

/-- The double with a sign and magnitude bits. -/
def ofMagnitudeBits (negative : Bool) (bits : Nat) : Float :=
  Float.ofBits (UInt64.ofNat (if negative then Nat.pow 2 63 + bits else bits))

/-- The double nearest to a quotient, infinite beyond the largest finite one. -/
def nearest (negative : Bool) (num den : Nat) : Float :=
  ofMagnitudeBits negative (nearestBits num den)

/-- The double nearest to `digits * 10 ^ exponent`. Exponents so large or so small that the
    result is infinite or zero whatever the digits are decided without computing the power. -/
def ofDecimal (negative : Bool) (digits : Nat) (exponent : Int) : Float :=
  let top := (Nat.log2 digits : Int) + 1
  if digits = 0 then ofMagnitudeBits negative 0
  else if 400 < exponent then ofMagnitudeBits negative infinityBits
  else if top + 3 * exponent < -1200 then ofMagnitudeBits negative 0
  else if 0 ≤ exponent then nearest negative (digits * Nat.pow 10 exponent.toNat) 1
  else nearest negative digits (Nat.pow 10 (-exponent).toNat)

/-- The double nearest to a quotient of whole numbers. -/
def ofQuotient (m n : Int) : Float :=
  nearest (decide (m < 0) != decide (n < 0)) m.natAbs n.natAbs

/-- The double nearest to a whole number. -/
def ofInt (n : Int) : Float := nearest (n < 0) n.natAbs 1

/-- Whether a finite double is a whole number. -/
def isWhole (x : Float) : Bool :=
  match parts x with
  | .finite _ units => units % unitsPerOne = 0
  | _ => false

/-- Whether a double has the value of a whole number. -/
def isEqualTo (x : Float) (n : Int) : Bool :=
  match parts x with
  | .finite negative units =>
    units = n.natAbs * unitsPerOne && (units = 0 || negative = decide (n < 0))
  | _ => false

/-- What stops a double from becoming a whole number. -/
inductive NotWhole where
  | nan
  | infinite
  deriving Repr, DecidableEq

/-- The double without its fraction. -/
def truncate (x : Float) : Except NotWhole Int :=
  match parts x with
  | .nan => .error .nan
  | .infinite _ => .error .infinite
  | .finite negative units =>
    let n : Int := (units / unitsPerOne : Nat)
    .ok (if negative then -n else n)

end VisualNovel.Number

import VisualNovel.Number.Binary64

/-!
The shortest decimal text of a double: the fewest digits that read back as the same double and,
of those, the nearest to it. The search looks at the two neighbours of the exact value on each
decimal grid in turn; the grid of all its digits holds the value itself, so it ends.
-/

namespace VisualNovel.Number

/-- The exact value of a finite double as a whole number of units of 10⁻¹⁰⁷⁴. -/
def exactDecimal (units : Nat) : Nat := units * Nat.pow 5 1074

/-- Digits of a decimal fraction: it is `0.digits × 10 ^ point`, the digits without zeros at
    their end. -/
structure Digits where
  digits : List Char
  point : Int
  deriving Repr, DecidableEq

/-- The decimal digits of a natural number. -/
def digitsOf (n : Nat) : List Char := Nat.toDigits 10 n

/-- The double's neighbours on the grid of multiples of `10 ^ drop`, the nearer first and of two
    equally near ones the even multiple. -/
def neighbours (exact drop : Nat) : List Nat :=
  let step := Nat.pow 10 drop
  let below := exact / step
  let twice := 2 * (exact % step)
  if twice < step || (twice == step && below % 2 == 0) then [below, below + 1]
  else [below + 1, below]

/-- The first grid, from `drop` digits dropped down to none, on which a neighbour of the exact
    value reads back; the neighbour and the number of digits it drops. -/
def firstThatReadsBack (bits exact : Nat) : (drop : Nat) → Nat × Nat
  | 0 => (exact, 0)
  | drop + 1 =>
    let reads (n : Nat) : Bool := nearestBits (n * Nat.pow 10 (drop + 1)) (Nat.pow 10 1074) == bits
    match (neighbours exact (drop + 1)).find? reads with
    | some n => (n, drop + 1)
    | none => firstThatReadsBack bits exact drop

/-- The digits of a number in units of 10⁻¹⁰⁷⁴ of which the last `drop` digits were dropped. -/
def Digits.ofDropped (n drop : Nat) : Digits :=
  let kept := digitsOf n
  { digits := (kept.reverse.dropWhile (· == '0')).reverse
    point := (kept.length + drop : Nat) - 1074 }

/-- The shortest digits of a positive finite double, given by its magnitude bits. -/
def shortestDigits (bits : Nat) : Digits :=
  let exact := exactDecimal (unitsOfBits bits)
  let found := firstThatReadsBack bits exact ((digitsOf exact).length - 1)
  Digits.ofDropped found.1 found.2

/-- Where a layout stops writing numbers positionally. A number `0.d… × 10 ^ point` is positional
    for `low < point ≤ high`; `pointZero` says whether a whole number then ends in `.0`. -/
structure Layout where
  low : Int
  high : Int
  pointZero : Bool
  deriving Repr, DecidableEq

/-- Numbers from 0.0001 up to below 10¹⁶ are positional, whole ones with `.0`. -/
def plainLayout : Layout := ⟨-4, 16, true⟩

/-- An exponent: its sign and at least two digits. -/
def exponentText (e : Int) : List Char :=
  let ds := digitsOf e.natAbs
  'e' :: (if e < 0 then '-' else '+') :: (if ds.length < 2 then '0' :: ds else ds)

/-- The text of digits under a layout. -/
def Layout.write (layout : Layout) (d : Digits) : List Char :=
  let count := d.digits.length
  if layout.low < d.point ∧ d.point ≤ layout.high then
    if d.point ≤ 0 then '0' :: '.' :: List.replicate (-d.point).toNat '0' ++ d.digits
    else
      let whole := d.point.toNat
      if count ≤ whole then
        d.digits ++ List.replicate (whole - count) '0' ++
          (if layout.pointZero then ['.', '0'] else [])
      else d.digits.take whole ++ '.' :: d.digits.drop whole
  else
    let mantissa :=
      match d.digits with
      | [] => ['0']
      | [c] => [c]
      | c :: rest => c :: '.' :: rest
    mantissa ++ exponentText (d.point - 1)

/-- The shortest text of a double. -/
def shortest (x : Float) : String :=
  let bits := x.toBits.toNat % Nat.pow 2 63
  match parts x with
  | .nan => "nan"
  | .infinite negative => if negative then "-inf" else "inf"
  | .finite negative units =>
    let body := if units = 0 then ['0', '.', '0'] else plainLayout.write (shortestDigits bits)
    String.ofList (if negative then '-' :: body else body)

/-- The text of a double in which a whole number has neither point nor exponent. -/
def shortestOrWhole (x : Float) : String :=
  match parts x with
  | .finite negative units =>
    if units % unitsPerOne = 0 then
      let n := units / unitsPerOne
      String.ofList (if negative && n ≠ 0 then '-' :: digitsOf n else digitsOf n)
    else shortest x
  | _ => shortest x

end VisualNovel.Number

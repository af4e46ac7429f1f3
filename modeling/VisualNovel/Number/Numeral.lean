import VisualNovel.Number.Binary64
import VisualNovel.Text.Words

/-!
Numerals: numbers as people write them. Blanks may stand around a numeral, a sign before it,
decimal digits of any script in it, and a single low line between two digits. The information
separators U+001C to U+001F are no blanks here, and a whole number has at most `digitLimit` digits.
-/

namespace VisualNovel.Number

open VisualNovel.Text

/-- The text without the low line that it begins with, if a digit follows. -/
def skipLowLine : List Char → List Char
  | '_' :: c :: rest => if isDigit c then c :: rest else '_' :: c :: rest
  | cs => cs

theorem length_skipLowLine_le (cs : List Char) : (skipLowLine cs).length ≤ cs.length := by
  unfold skipLowLine
  split
  · split <;> simp
  · exact Nat.le_refl _

/-- The values of the digits that a text begins with, and the rest of the text. -/
def digitRun : List Char → List Nat × List Char
  | [] => ([], [])
  | c :: rest =>
    match digitValue? c with
    | none => ([], c :: rest)
    | some d =>
      let (ds, after) := digitRun (skipLowLine rest)
      (d :: ds, after)
  termination_by cs => cs.length
  decreasing_by
    have := length_skipLowLine_le rest
    simp only [List.length_cons]
    omega

/-- The number that digits make in a base. -/
def ofDigits (base : Nat) (digits : List Nat) : Nat :=
  digits.foldl (fun n d => n * base + d) 0

/-- Whether a sign that a text begins with is a minus, and the rest of the text. -/
def signOf : List Char → Bool × List Char
  | '-' :: rest => (true, rest)
  | '+' :: rest => (false, rest)
  | cs => (false, cs)

def signed (negative : Bool) (n : Nat) : Int := if negative then -(n : Int) else n

/-- A character that may stand around a numeral. -/
def isMargin (c : Char) : Bool := isBlank c && !(0x1c ≤ c.toNat && c.toNat ≤ 0x1f)

/-- A numeral without what stands around it. -/
def trimMargins (cs : List Char) : List Char :=
  ((cs.dropWhile isMargin).reverse.dropWhile isMargin).reverse

/-- How many decimal digits a whole number may be written with. -/
def digitLimit : Nat := 4300

/-- The whole number that a text writes. -/
def readWhole? (text : List Char) : Option Int :=
  let (negative, body) := signOf (trimMargins text)
  match digitRun body with
  | (d :: ds, []) =>
    if digitLimit < (d :: ds).length then none else some (signed negative (ofDigits 10 (d :: ds)))
  | _ => none

/-- The exponent at the start of a text, zero if there is none, and the rest of the text. A mark
    without digits after it is no exponent. -/
def exponentOf : List Char → Int × List Char
  | c :: rest =>
    if c == 'e' || c == 'E' then
      let (negative, body) := signOf rest
      match digitRun body with
      | ([], _) => (0, c :: rest)
      | (ds, after) => (signed negative (ofDigits 10 ds), after)
    else (0, c :: rest)
  | [] => (0, [])

/-- The digits after a decimal point at the start of a text, and the rest of the text. -/
def fractionOf : List Char → List Nat × List Char
  | '.' :: rest => digitRun rest
  | cs => ([], cs)

/-- The double nearest to the decimal that a text writes. -/
def readDecimal? (negative : Bool) (body : List Char) : Option Float :=
  let (whole, afterWhole) := digitRun body
  let (fraction, afterFraction) := fractionOf afterWhole
  if whole.isEmpty && fraction.isEmpty then none
  else
    let (exponent, rest) := exponentOf afterFraction
    if rest.isEmpty then
      some (ofDecimal negative (ofDigits 10 (whole ++ fraction)) (exponent - fraction.length))
    else none

/-- The infinite double with a sign. -/
def infinite (negative : Bool) : Float := ofMagnitudeBits negative infinityBits

/-- The double that is not a number. -/
def notANumber : Float := 0 / 0

/-- The double nearest to the number that a text writes, which may also be a word for infinity or
    for no number. -/
def readReal? (text : List Char) : Option Float :=
  let (negative, body) := signOf (trimMargins text)
  let word := String.ofList (body.map Char.toLower)
  if word == "inf" || word == "infinity" then some (infinite negative)
  else if word == "nan" then some notANumber
  else readDecimal? negative body

end VisualNovel.Number

import VisualNovel.Number.Shortest

/-!
Decimal text with a fixed number of places: the exact value of the double rounded to that many
places, a tie to the even last digit.
-/

namespace VisualNovel.Number

/-- A finite magnitude with `places` places after the point. -/
def fixedMagnitude (places units : Nat) : List Char :=
  let ds := digitsOf (roundDiv (units * Nat.pow 10 places) unitsPerOne)
  let padded := List.replicate (places + 1 - ds.length) '0' ++ ds
  let whole := padded.length - places
  padded.take whole ++ '.' :: padded.drop whole

/-- A double with `places` places after the point; the sign of a zero is kept. -/
def fixed (places : Nat) (x : Float) : String :=
  match parts x with
  | .nan => "nan"
  | .infinite negative => if negative then "-inf" else "inf"
  | .finite negative units =>
    let body := fixedMagnitude places units
    String.ofList (if negative then '-' :: body else body)

end VisualNovel.Number

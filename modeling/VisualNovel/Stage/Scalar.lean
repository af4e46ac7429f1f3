import VisualNovel.Number.Binary64

/-!
The numbers in which the stage measures time and position. The player runs on doubles; everything
that is said about timing in exact arithmetic is said of the same definitions over an exact scalar.
-/

namespace VisualNovel

/-- Arithmetic and order, as far as the stage uses them. -/
class Scalar (α : Type) extends Add α, Sub α, Mul α, Div α where
  /-- The decimal fraction `digits / 10 ^ places`. -/
  decimal : (digits places : Nat) → α
  /-- A number of a script. -/
  ofFloat : Float → α
  less : α → α → Bool
  lessEq : α → α → Bool
  /-- The third power. -/
  cube : α → α
  /-- Half a cosine wave: 0 at 0, 1 at 1, level at both. -/
  wave : α → α

namespace Scalar

variable {α : Type} [Scalar α]

def nat (n : Nat) : α := decimal n 0
def zero : α := decimal 0 0
def one : α := decimal 1 0

/-- The smaller of two numbers, the first where they do not compare. -/
def least (a b : α) : α := if less b a then b else a

/-- The larger of two numbers, the first where they do not compare. -/
def greatest (a b : α) : α := if less a b then b else a

/-- A number brought between zero and one. -/
def clamp (x : α) : α := greatest zero (least one x)

/-- The sum of a list, from the left. -/
def sum (xs : List α) : α := xs.foldl (· + ·) zero

end Scalar

instance : Scalar Float where
  decimal digits places := Float.ofScientific digits true places
  ofFloat x := x
  less a b := a < b
  lessEq a b := a ≤ b
  cube x := Float.pow x 3
  wave t := 0.5 - 0.5 * Float.cos (3.141592653589793 * t)

end VisualNovel

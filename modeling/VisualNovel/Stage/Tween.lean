import VisualNovel.Script.Vocabulary
import VisualNovel.Stage.Scalar

/-!
A tween drives one attribute of one object from a start to an end value within a time. Its values
are numbers or tuples of numbers.
-/

namespace VisualNovel

/-- How the way from start to end is spread over the time. -/
inductive Ease where
  | linear
  | outCubic
  | inOutSine
  deriving Repr, DecidableEq

instance : Vocabulary Ease where
  members := [.linear, .outCubic, .inOutSine]
  word
    | .linear => "linear"
    | .outCubic => "out_cubic"
    | .inOutSine => "in_out_sine"

/-- The fraction of the way at a fraction of the time. -/
def Ease.at {α : Type} [Scalar α] (ease : Ease) (t : α) : α :=
  match ease with
  | .linear => t
  | .outCubic => Scalar.one - Scalar.cube (Scalar.one - Scalar.clamp t)
  | .inOutSine => Scalar.wave (Scalar.clamp t)

/-- What an attribute holds. -/
inductive TweenValue (α : Type) where
  | number (x : α)
  | tuple (xs : List α)
  deriving DecidableEq

namespace TweenValue

variable {α : Type} [Scalar α]

/-- The number on the way from `a` to `b`. -/
def mix (a b u : α) : α := a + (b - a) * u

/-- The value on the way between two values, part by part; a number and a tuple do not mix. -/
def between? (start finish : TweenValue α) (u : α) : Option (TweenValue α) :=
  match start, finish with
  | .number a, .number b => some (.number (mix a b u))
  | .tuple xs, .tuple ys => some (.tuple (List.zipWith (fun x y => mix x y u) xs ys))
  | _, _ => none

end TweenValue

/-- A tween on an object of type `ω`, at a slot of type `τ`. What is to happen when it ends
    is a `κ`. -/
structure Tween (ω τ κ α : Type) where
  object : ω
  slot : τ
  start : TweenValue α
  finish : TweenValue α
  duration : α
  ease : Ease
  elapsed : α
  onDone : Option κ
  isDone : Bool := false

namespace Tween

variable {ω τ κ α : Type} [Scalar α]

/-- The fraction of its time that a tween has run; all of it when there is no time to run. -/
def fraction (tw : Tween ω τ κ α) : α :=
  if Scalar.lessEq tw.duration Scalar.zero then Scalar.one
  else Scalar.clamp (tw.elapsed / tw.duration)

/-- The value that a running tween gives its attribute. -/
def value? (tw : Tween ω τ κ α) : Option (TweenValue α) :=
  tw.start.between? tw.finish (tw.ease.at tw.fraction)

/-- The time of a tween is over. -/
def isOver (tw : Tween ω τ κ α) : Bool := Scalar.lessEq Scalar.one tw.fraction

/-- Two tweens drive the same attribute of the same object. -/
def drivesSame [BEq ω] [BEq τ] (tw other : Tween ω τ κ α) : Bool :=
  tw.object == other.object && tw.slot == other.slot

end Tween

end VisualNovel

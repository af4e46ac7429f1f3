import VisualNovel.Cast.Character
import VisualNovel.Number.Binary64

/-!
Animations: a sheet of equally large frames and the speed at which they follow one another.
-/

namespace VisualNovel

structure SpriteSheet where
  name : String
  sheet : String
  frames : Int
  framesPerSecond : Float
  frameWidth : Int
  frameHeight : Int

namespace SpriteSheet

/-- How long a frame is shown, in seconds. -/
def frameDuration (s : SpriteSheet) : Float := 1 / s.framesPerSecond

/-- A number of a definition. -/
inductive Quantity where
  | whole (n : Int)
  | real (x : Float)

/-- The number under a key; a truth value is none. -/
def requireNumber (place key : String) (entries : List (Data × Data)) :
    Except DefinitionError Quantity :=
  match Data.get? key entries with
  | some (.int n) => .ok (.whole n)
  | some (.float x) => .ok (.real x)
  | _ => .error (.flawed place (.notNumber key))

/-- The double nearest to a whole number that has one. -/
def toDouble (n : Int) : Except DefinitionError Float :=
  let x := Number.ofInt n
  if x.isInf then .error .tooLarge else .ok x

/-- The whole positive number under a key. -/
def requireCount (place key : String) (entries : List (Data × Data)) :
    Except DefinitionError Int := do
  match ← requireNumber place key entries with
  | .whole n =>
    discard (toDouble n)
    if n ≤ 0 then .error (.flawed place (.notPositive key))
    return n
  | .real x =>
    if !Number.isWhole x then .error (.flawed place (.notWhole key))
    if x ≤ 0 then .error (.flawed place (.notPositive key))
    match Number.truncate x with
    | .ok n => return n
    | .error _ => .error (.flawed place (.notWhole key))

/-- The positive number under a key. -/
def requireRate (place key : String) (entries : List (Data × Data)) :
    Except DefinitionError Float := do
  match ← requireNumber place key entries with
  | .whole n =>
    if n ≤ 0 then .error (.flawed place (.notPositive key))
    toDouble n
  | .real x =>
    if x ≤ 0 then .error (.flawed place (.notPositive key))
    return x

/-- The animation that a mapping defines. -/
def ofEntries (place : String) (entries : List (Data × Data)) :
    Except DefinitionError SpriteSheet := do
  let name ← requireText place "name" entries
  let sheet ← requireText place "spritesheet" entries
  let frames ← requireCount place "frames" entries
  let framesPerSecond ← requireRate place "fps" entries
  let frameWidth ← requireCount place "frame_width" entries
  let frameHeight ← requireCount place "frame_height" entries
  return { name, sheet, frames, framesPerSecond, frameWidth, frameHeight }

end SpriteSheet

end VisualNovel

import VisualNovel.Script.Vocabulary

/-!
What comes in from the window: keys, the mouse, and the window itself.
-/

namespace VisualNovel

inductive Key where
  | space
  | enter
  | keypadEnter
  | escape
  | h
  | up
  | down
  | pageUp
  | pageDown
  | f11
  | q
  | other
  deriving Repr, DecidableEq

/-- The keys by their short names; whatever has none is some other key. -/
instance : Vocabulary Key where
  members :=
    [.space, .enter, .keypadEnter, .escape, .h, .up, .down, .pageUp, .pageDown, .f11, .q, .other]
  word
    | .space => "space"
    | .enter => "return"
    | .keypadEnter => "kp_enter"
    | .escape => "esc"
    | .h => "h"
    | .up => "up"
    | .down => "down"
    | .pageUp => "pageup"
    | .pageDown => "pagedown"
    | .f11 => "f11"
    | .q => "q"
    | .other => ""

/-- Whether a key makes the story go on. -/
def Key.advances : Key → Bool
  | .space | .enter | .keypadEnter => true
  | _ => false

inductive Input where
  | key (k : Key)
  | keyUp (k : Key)
  | click (button : Int)
  /-- The wheel was turned, up by a positive number. -/
  | wheel (y : Int)
  | resize (width height : Int)
  | quit
  deriving Repr, DecidableEq

end VisualNovel

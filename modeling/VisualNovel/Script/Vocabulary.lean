/-!
The closed vocabularies of the script language: where an actor stands, which way it faces, how a
picture is scaled, what a direction acts on and what it does. Each is an enumeration whose members
have a word in the script, and the word determines the member.
-/

namespace VisualNovel

/-- An enumeration whose members are written as words. -/
class Vocabulary (α : Type) where
  members : List α
  word : α → String

namespace Vocabulary

/-- The member that is written as this word. -/
def ofWord? {α : Type} [Vocabulary α] (w : String) : Option α :=
  (members (α := α)).find? fun a => word a == w

/-- The words of a vocabulary. -/
def words (α : Type) [Vocabulary α] : List String := (members (α := α)).map word

end Vocabulary

/-- The seven places where an actor can stand. -/
inductive Position where
  | center
  | farLeft
  | farRight
  | left
  | right
  | invisibleLeft
  | invisibleRight
  deriving Repr, DecidableEq

instance : Vocabulary Position where
  members := [.center, .farLeft, .farRight, .left, .right, .invisibleLeft, .invisibleRight]
  word
    | .center => "center"
    | .farLeft => "far left"
    | .farRight => "far right"
    | .left => "left"
    | .right => "right"
    | .invisibleLeft => "invisible left"
    | .invisibleRight => "invisible right"

inductive Facing where
  | left
  | right
  deriving Repr, DecidableEq

instance : Vocabulary Facing where
  members := [.left, .right]
  word
    | .left => "left"
    | .right => "right"

/-- Whether a fade ends visible or invisible. -/
inductive Fade where
  | fadeIn
  | fadeOut
  deriving Repr, DecidableEq

instance : Vocabulary Fade where
  members := [.fadeIn, .fadeOut]
  word
    | .fadeIn => "in"
    | .fadeOut => "out"

/-- How a panel picture fills its box: in nine slices, or stretched as a whole. -/
inductive Scaling where
  | sliced
  | auto
  deriving Repr, DecidableEq

instance : Vocabulary Scaling where
  members := [.sliced, .auto]
  word
    | .sliced => "sliced"
    | .auto => "auto"

/-- The panels of the dialogue box. -/
inductive Panel where
  | textbox
  | namebox
  deriving Repr, DecidableEq

instance : Vocabulary Panel where
  members := [.textbox, .namebox]
  word
    | .textbox => "textbox"
    | .namebox => "namebox"

/-- What a stage direction acts on. -/
inductive TargetKind where
  | actor
  | animation
  | gui
  | background
  | scene
  deriving Repr, DecidableEq

instance : Vocabulary TargetKind where
  members := [.actor, .animation, .gui, .background, .scene]
  word
    | .actor => "actor"
    | .animation => "animation"
    | .gui => "gui"
    | .background => "background"
    | .scene => "scene"

/-- What a stage direction does to its target. -/
inductive Action where
  | appear
  | disappear
  | fade
  | move
  | look
  | change
  | jump
  deriving Repr, DecidableEq

instance : Vocabulary Action where
  members := [.appear, .disappear, .fade, .move, .look, .change, .jump]
  word
    | .appear => "appear"
    | .disappear => "disappear"
    | .fade => "fade"
    | .move => "move"
    | .look => "look"
    | .change => "change"
    | .jump => "jump"

end VisualNovel

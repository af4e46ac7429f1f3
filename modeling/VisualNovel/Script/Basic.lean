import VisualNovel.Data
import VisualNovel.Script.Vocabulary
import VisualNovel.Script.Expression

/-!
Scripts: scenes in the order of the text, each a list of directives. A directive is a line of
dialogue, a log entry or a stage direction; a stage direction names a target, an action and the
parameters that the writer gave.

`Script.same` is equality of content: it ignores the script's name and the lines of its parts, and
compares numbers as numbers.
-/

namespace VisualNovel

/-- Where something stands: an actor at a named place, an animation at coordinates in percent. -/
inductive Placement where
  | place (p : Position)
  | coords (values : List Float)
  deriving BEq

/-- A text that may be given or not, and where it is given may still be blank. -/
abbrev GivenText := Option (Option String)

/-- Named parameters of a direction or of a command. Every one may be absent; `extra` holds those
    that nothing in the library reads. -/
structure Params where
  position : Option Placement := none
  facing : Option Facing := none
  emotion : GivenText := none
  direction : Option Fade := none
  scale : Option Float := none
  layer : Option Int := none
  element : Option Panel := none
  id : GivenText := none
  scaling : Option Scaling := none
  name : GivenText := none
  speaker : GivenText := none
  text : GivenText := none
  narrator : Option Bool := none
  mainCharacter : Option Bool := none
  extra : List (String × Data) := []
  deriving BEq

/-- Who speaks a line: a character, the player's own character, or nobody. -/
inductive SpeakerKind where
  | character
  | mainCharacter
  | narrator
  deriving Repr, DecidableEq

instance : Vocabulary SpeakerKind where
  members := [.character, .mainCharacter, .narrator]
  word
    | .character => "character"
    | .mainCharacter => "MC"
    | .narrator => "info"

/-- A speaker; only a character has a name. -/
structure Speaker where
  kind : SpeakerKind
  name : Option String := none
  deriving Repr, DecidableEq

/-- What a direction acts on: the name of an actor, of an animation or of a panel. -/
structure Target where
  kind : TargetKind
  name : Option String := none
  deriving Repr, DecidableEq

structure Dialogue where
  speaker : Speaker
  text : Expression
  emotion : Option String := none
  deriving Repr, DecidableEq

structure StageDirection where
  target : Target
  action : Action
  params : Params := {}
  deriving BEq

inductive Directive where
  | dialogue (d : Dialogue)
  | log (message : Expression)
  | stage (d : StageDirection)
  deriving BEq

/-- A directive and the line it stands on. -/
structure Numbered where
  directive : Directive
  line : Int := 0

structure Scene where
  name : String
  directives : List Numbered := []
  line : Int := 0

/-- A script: its scenes in order, under distinct names. -/
structure Script where
  scenes : List Scene
  name : String := ""

/-- The story goes to another scene. -/
def StageDirection.isJump (d : StageDirection) : Bool :=
  d.target.kind == .scene && d.action == .jump

/-- Moves and fades take time on the stage. -/
def Action.isDurational : Action → Bool
  | .move => true
  | .fade => true
  | _ => false

def Directive.isDurational : Directive → Bool
  | .stage d => d.action.isDurational
  | _ => false

namespace Scene

def length (s : Scene) : Nat := s.directives.length

def directive? (s : Scene) (index : Nat) : Option Directive :=
  (s.directives[index]?).map (·.directive)

/-- Equality of content. -/
def same (s t : Scene) : Bool :=
  s.name == t.name && s.directives.map (·.directive) == t.directives.map (·.directive)

end Scene

namespace Script

def scene? (s : Script) (name : String) : Option Scene :=
  s.scenes.find? fun scene => scene.name == name

def hasScene (s : Script) (name : String) : Bool := (s.scene? name).isSome

/-- The scenes, a later one of the same name taking the place of an earlier one. -/
def putScene (scenes : List Scene) (scene : Scene) : List Scene :=
  if scenes.any fun s => s.name == scene.name then
    scenes.map fun s => if s.name == scene.name then scene else s
  else scenes ++ [scene]

/-- A script of these scenes. -/
def ofScenes (scenes : List Scene) (name : String := "") : Script :=
  { scenes := scenes.foldl putScene [], name := name }

/-- Equality of content: the same scenes under the same names. -/
def same (s t : Script) : Bool :=
  s.scenes.length == t.scenes.length &&
    s.scenes.all fun scene => match t.scene? scene.name with
      | some other => scene.same other
      | none => false

end Script

end VisualNovel

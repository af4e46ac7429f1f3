import VisualNovel.Script.Repertoire

/-!
The place where a story stands: a scene of a script, the index of the next directive in it, and
what the story waits for.
-/

namespace VisualNovel

/-- What a story waits for. While it changes scenes it is in neither of them; that state is over
    before anything else can look. -/
inductive Wait where
  | ready
  | advance
  | effect
  | changingScene
  | halted
  deriving Repr, DecidableEq

instance : Vocabulary Wait where
  members := [.ready, .advance, .effect, .changingScene, .halted]
  word
    | .ready => "ready"
    | .advance => "awaiting_advance_input"
    | .effect => "awaiting_effect_completion"
    | .changingScene => "scene_transition"
    | .halted => "halted"

/-- A place in a script. The index is that of a directive, or the scene's length at its curtain;
    `pending` is the command that the story waits for. Every start makes a cursor with a number of
    its own. -/
structure Cursor where
  id : ScriptId
  script : Script
  scene : String
  index : Nat := 0
  wait : Wait := .ready
  pending : Option Int := none
  number : Nat

namespace Cursor

/-- The scene that the cursor stands in. -/
def scene? (c : Cursor) : Option Scene := c.script.scene? c.scene

/-- The cursor has run through its scene. -/
def atCurtain (c : Cursor) : Bool :=
  match c.scene? with
  | some s => s.length ≤ c.index
  | none => true

/-- The cursor waits for a command. -/
def await (c : Cursor) (wait : Wait) (command : Int) : Cursor :=
  { c with wait := wait, pending := some command }

/-- The cursor goes on to the next directive. -/
def skip (c : Cursor) : Cursor := { c with index := c.index + 1 }

/-- The cursor stops waiting and goes on to the next directive. -/
def resume (c : Cursor) : Cursor := { c.skip with wait := .ready, pending := none }

/-- The cursor leaves its scene. -/
def leave (c : Cursor) : Cursor := { c with wait := .changingScene }

/-- The cursor arrives at the beginning of a scene. -/
def enter (c : Cursor) (scene : String) : Cursor :=
  { c with scene := scene, index := 0, pending := none, wait := .ready }

/-- The cursor stops at the curtain. -/
def halt (c : Cursor) : Cursor := { c with wait := .halted }

/-- What the cursor does, in the words of a warning. -/
def situation (c : Cursor) : String :=
  s!"{Vocabulary.word c.wait} at {c.scene}[{c.index}]"

end Cursor

end VisualNovel

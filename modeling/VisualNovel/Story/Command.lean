import VisualNovel.Script.Basic
import VisualNovel.Script.Validation

/-!
Commands: directives on their way to the subsystem that carries them out. Dispatching a directive
fills in its text and the parameters that the writer left out.
-/

namespace VisualNovel

/-- The parts of the player that carry out commands. -/
inductive Subsystem where
  | actor
  | animation
  | background
  | gui
  | dialogue
  | log
  | scene
  deriving Repr, DecidableEq

instance : Vocabulary Subsystem where
  members := [.actor, .animation, .background, .gui, .dialogue, .log, .scene]
  word
    | .actor => "actor"
    | .animation => "animation"
    | .background => "background"
    | .gui => "gui"
    | .dialogue => "dialogue"
    | .log => "log"
    | .scene => "scene"

/-- The subsystem that looks after a kind of target. -/
def TargetKind.subsystem : TargetKind → Subsystem
  | .actor => .actor
  | .animation => .animation
  | .gui => .gui
  | .background => .background
  | .scene => .scene

/-- One resolved instruction to a subsystem. A durational one is acknowledged when its effect is
    over. -/
structure Command where
  id : Int
  subsystem : Subsystem
  verb : String
  target : Option String := none
  params : Params := {}
  durational : Bool := false

/-- What a directive says once its expressions are evaluated. -/
structure Resolved where
  speaker : GivenText := none
  text : GivenText := none

/-- A direction's parameters with the defaults of its phrase: an actor comes on stage in the
    centre, facing right; an animation appears in the middle of the window, unscaled, on the third
    layer; a panel picture is stretched. -/
def StageDirection.completeParams (d : StageDirection) : Params :=
  let p := d.params
  match d.target.kind with
  | .actor =>
    if d.action = .appear ∨ p.direction = some .fadeIn then
      { p with
        position := p.position.or (some (.place .center))
        facing := p.facing.or (some .right) }
    else p
  | .animation =>
    if d.action = .appear then
      { p with
        position := p.position.or (some (.coords [50, 50]))
        scale := p.scale.or (some 1)
        layer := p.layer.or (some 3) }
    else p
  | .gui => { p with scaling := p.scaling.or (some .auto) }
  | _ => p

/-- The command with a given id that carries out a directive. -/
def Directive.dispatch (d : Directive) (resolved : Resolved) (id : Int) :
    Except ParamError Command :=
  match d with
  | .dialogue line => do
    let text ← need "text" resolved.text
    return {
      id := id
      subsystem := .dialogue
      verb := "say"
      target := line.speaker.name
      params := {
        speaker := some (resolved.speaker.getD (some ""))
        text := some text
        narrator := some (line.speaker.kind == .narrator)
        mainCharacter := some (line.speaker.kind == .mainCharacter)
        emotion := line.emotion.map some } }
  | .log _ => do
    let text ← need "text" resolved.text
    return { id := id, subsystem := .log, verb := "emit", params := { text := some text } }
  | .stage direction =>
    return {
      id := id
      subsystem := direction.target.kind.subsystem
      verb := Vocabulary.word direction.action
      target := direction.target.name
      params := direction.completeParams
      durational := direction.action.isDurational }

end VisualNovel

import VisualNovel.Cast.Cast
import VisualNovel.Stage.Animator
import VisualNovel.Stage.Reveal
import VisualNovel.Story.Command

/-!
The stage: what the player sees, as plain state. It carries out commands, lets moves and fades run
in time, and answers with signals: an effect that is over is acknowledged, and a command about
something that the stage does not know is reported and changes nothing else.
-/

namespace VisualNovel

/-- How long moves and fades take, in seconds. -/
structure EffectDurations (α : Type) where
  move : α
  fade : α

/-- A little under a second for a move, a little over half a second for a fade. -/
def EffectDurations.standard {α : Type} [Scalar α] : EffectDurations α :=
  ⟨Scalar.decimal 9 1, Scalar.decimal 6 1⟩

/-- The left edge of an actor at a place, in percent of the window's width. -/
def Position.percent {α : Type} [Scalar α] : Position → α
  | .center => Scalar.nat 35
  | .farLeft => Scalar.nat 5
  | .farRight => Scalar.nat 65
  | .left => Scalar.nat 20
  | .right => Scalar.nat 50
  | .invisibleLeft => Scalar.zero - Scalar.nat 40
  | .invisibleRight => Scalar.nat 140

/-- An actor on stage. Everything that comes on stage gets a number of its own. -/
structure Actor (α : Type) where
  number : Nat
  character : Character
  x : α
  facing : Facing
  emotion : String
  outfit : String
  alpha : α

/-- An animation on stage; its position is its centre, in percent of the window. -/
structure Animated (α : Type) where
  number : Nat
  sheet : SpriteSheet
  position : List α
  scale : α
  layer : Int
  facing : Facing := .right
  alpha : α
  elapsed : α

/-- The picture of a panel. -/
structure PanelPicture where
  sprite : Option String
  scaling : Scaling
  deriving Repr, DecidableEq

/-- What tweens change on stage. -/
inductive Slot where
  | alpha
  | x
  | position
  deriving Repr, DecidableEq

/-- Who leaves the stage when a fade is over. -/
inductive Leaving where
  | actor (name : String)
  | animation (name : String)
  deriving Repr, DecidableEq

/-- What is done at the end of an effect: somebody may leave, and the command is acknowledged. -/
structure Acknowledgement where
  leaving : Option Leaving := none
  command : Int
  deriving Repr, DecidableEq

/-- What the stage answers. -/
inductive Signal where
  | completed (command : Int)
  | unresolved (command : Int) (reason : String)
  deriving Repr, DecidableEq

structure Stage (α : Type) where
  cast : Cast := {}
  effects : EffectDurations α
  animator : Animator Nat Slot Acknowledgement α := {}
  box : DialogueBox α
  actors : Table String (Actor α) := []
  animations : Table String (Animated α) := []
  panels : Table Panel PanelPicture := []
  background : Option String := none
  scene : Option String := none
  narrating : Bool := false
  logCapacity : Nat
  log : List (Option String) := []
  nextNumber : Nat := 0

namespace Actor

variable {α : Type}

def sprite? (a : Actor α) : Option String := a.character.sprite? (some a.emotion) (some a.outfit)

/-- The actor with an attribute changed by a tween. -/
def write (slot : Slot) (value : TweenValue α) (a : Actor α) : Actor α :=
  match slot, value with
  | .alpha, .number v => { a with alpha := v }
  | .x, .number v => { a with x := v }
  | _, _ => a

end Actor

namespace Animated

variable {α : Type}

/-- The animation with an attribute changed by a tween. -/
def write (slot : Slot) (value : TweenValue α) (a : Animated α) : Animated α :=
  match slot, value with
  | .alpha, .number v => { a with alpha := v }
  | .position, .tuple vs => { a with position := vs }
  | _, _ => a

/-- The frame that an animation shows, going round. -/
def frame (a : Animated Float) : Except Number.NotWhole Int := do
  let n ← Number.truncate (a.elapsed * a.sheet.framesPerSecond)
  return n % a.sheet.frames

end Animated

namespace Stage

variable {α : Type} [Scalar α]

/-- A stage with nothing on it. -/
def empty (cast : Cast) (reveal : RevealParams α) (effects : EffectDurations α)
    (logCapacity : Nat := 4) : Stage α :=
  { cast, effects, box := { params := reveal }, logCapacity }

/-- A stage with nothing on it; none for a negative number of log lines. -/
def start? (cast : Cast) (reveal : RevealParams α) (effects : EffectDurations α)
    (logLines : Int) : Option (Stage α) :=
  if logLines < 0 then none else some (empty cast reveal effects logLines.toNat)

def isDialogueVisible (s : Stage α) : Bool := s.box.line.isSome

def isBusy (s : Stage α) : Bool := s.animator.isBusy

/-- An attribute of whatever has this number takes a value; nothing happens to what has left. -/
def write (number : Nat) (slot : Slot) (value : TweenValue α) (s : Stage α) : Stage α :=
  { s with
    actors := s.actors.map fun (n, a) =>
      (n, if a.number = number then a.write slot value else a)
    animations := s.animations.map fun (n, a) =>
      (n, if a.number = number then a.write slot value else a) }

/-- The stage without whoever leaves. -/
def remove (leaving : Leaving) (s : Stage α) : Stage α :=
  match leaving with
  | .actor name => { s with actors := s.actors.erase name }
  | .animation name => { s with animations := s.animations.erase name }

end Stage

/-- A stage at work: its state and the signals it has given, in order. -/
structure StageRun (α : Type) where
  stage : Stage α
  signals : List Signal := []

/-- Work on a stage. It fails only over a command that lacks a parameter. -/
abbrev StageAct (α β : Type) := Act ParamError (StageRun α) β

namespace StageAct

variable {α : Type} [Scalar α]

def change (f : Stage α → Stage α) : StageAct α Unit :=
  Act.change fun run => { run with stage := f run.stage }

def signal (s : Signal) : StageAct α Unit :=
  Act.change fun run => { run with signals := run.signals ++ [s] }

def stage : StageAct α (Stage α) := Act.view (·.stage)

/-- The stage as the owner of its animator. Acknowledging an effect adds no tweens. -/
def host : Host (StageRun α) ParamError Nat Slot Acknowledgement α where
  animator run := run.stage.animator
  setAnimator a run := { run with stage := { run.stage with animator := a } }
  write number slot value run := { run with stage := run.stage.write number slot value }
  fire ack := do
    match ack.leaving with
    | some leaving => change (Stage.remove leaving)
    | none => pure ()
    signal (.completed ack.command)
  mismatch := .notCoordinates
  slack := 0

/-- An effect begins: a tween of one attribute from a start to an end. -/
def tween (number : Nat) (slot : Slot) (start finish : TweenValue α) (duration : α) (ease : Ease)
    (ack : Acknowledgement) : StageAct α Unit := do
  let i := (← stage).animator.pool.size
  change fun s =>
    { s with
      animator := s.animator.make
        { object := number, slot, start, finish, duration, ease
          elapsed := Scalar.zero, onDone := some ack } }
  host.add i

/-- The number of the next actor or animation. -/
def fresh : StageAct α Nat := do
  let n := (← stage).nextNumber
  change fun s => { s with nextNumber := n + 1 }
  return n

/-- The name of a command's target, as reports quote it. -/
def quotedTarget (c : Command) : String := c.target.getD "None"

/-- The place of an actor that comes on stage. -/
def startPlace (p : Params) : Except ParamError Position :=
  match p.position with
  | none => .ok .center
  | some (.place place) => .ok place
  | some (.coords _) => .error .notAPlace

/-- The place that an actor moves to. -/
def targetPlace (p : Params) : Except ParamError Position :=
  match p.position with
  | none => .error (.missing "position")
  | some (.place place) => .ok place
  | some (.coords _) => .error .notAPlace

/-- An actor comes on stage with a given opacity; its number, unless its character lacks the
    emotion asked for. An actor of the same name gives way. -/
def enter (c : Command) (character : Character) (alpha : α) : StageAct α (Option Nat) := do
  let emotion := Character.orDefault c.params.emotion.join character.emotion
  if !character.hasEmotion (some emotion) none then
    signal (.unresolved c.id s!"'{character.name}' has no emotion '{emotion}'")
    return none
  match (← stage).actors.get? character.name with
  | some previous => host.cancel previous.number
  | none => pure ()
  let place ← startPlace c.params
  let number ← fresh
  let actor : Actor α :=
    { number, character, emotion, alpha
      x := place.percent
      facing := c.params.facing.getD .right
      outfit := character.outfit }
  change fun s => { s with actors := s.actors.put character.name actor }
  return some number

/-- The character that a command calls for; its absence is reported. -/
def calledCharacter (c : Command) : StageAct α (Option Character) := do
  match (← stage).cast.characters.get? (c.target.getD "") with
  | some character => return some character
  | none =>
    signal (.unresolved c.id s!"no character named '{quotedTarget c}'")
    return none

/-- A command to an actor who is on stage. -/
def direct (c : Command) (name : String) (actor : Actor α) : StageAct α Unit := do
  if c.verb == "disappear" then
    host.cancel actor.number
    change fun s => { s with actors := s.actors.erase name }
  else if c.verb == "fade" then
    tween actor.number .alpha (.number actor.alpha) (.number Scalar.zero)
      (← stage).effects.fade .linear { leaving := some (.actor name), command := c.id }
  else if c.verb == "move" then
    let place ← targetPlace c.params
    tween actor.number .x (.number actor.x) (.number place.percent) (← stage).effects.move
      .inOutSine { command := c.id }
  else if c.verb == "look" then
    let facing ← need "facing" c.params.facing
    change fun s => { s with actors := s.actors.change name fun a => { a with facing } }
  else signal (.unresolved c.id s!"actors cannot '{c.verb}'")

/-- A fade command makes its target visible. -/
def fadesIn (c : Command) : Except ParamError Bool := do
  if c.verb == "fade" then return (← need "direction" c.params.direction) == .fadeIn
  else return false

/-- A command to an actor. -/
def onActor (c : Command) : StageAct α Unit := do
  let name := c.target.getD ""
  if c.verb == "appear" then
    match ← calledCharacter c with
    | some character => discard (enter c character Scalar.one)
    | none => return
  else if ← fadesIn c then
    match ← calledCharacter c with
    | none => return
    | some character =>
      match ← enter c character Scalar.zero with
      | none => return
      | some number =>
        tween number .alpha (.number Scalar.zero) (.number Scalar.one) (← stage).effects.fade
          .linear { command := c.id }
  else
    match (← stage).actors.get? name with
    | none => signal (.unresolved c.id s!"'{name}' is not on stage")
    | some actor => direct c name actor

/-- The coordinates of a placement. -/
def coordinatesOf : Placement → Except ParamError (List α)
  | .coords xs => .ok (xs.map Scalar.ofFloat)
  | .place _ => .error .notCoordinates

/-- An animation comes on stage with a given opacity; its number. Parameters that are left out are
    those of the animation of the same name that it replaces, if there is one. -/
def stageAnimation (c : Command) (name : String) (sheet : SpriteSheet) (alpha : α) :
    StageAct α Nat := do
  let previous := (← stage).animations.get? name
  let position ←
    match c.params.position with
    | some placement => coordinatesOf placement
    | none =>
      pure (match previous with
        | some p => p.position
        | none => [Scalar.nat 50, Scalar.nat 50])
  let scale :=
    match c.params.scale, previous with
    | some x, _ => Scalar.ofFloat x
    | none, some p => p.scale
    | none, none => Scalar.one
  let layer := (c.params.layer.or (previous.map (·.layer))).getD 3
  let number ← fresh
  let animated : Animated α :=
    { number, sheet, position, scale, layer, alpha, elapsed := Scalar.zero }
  change fun s => { s with animations := s.animations.put name animated }
  return number

/-- A command to an animation that is on stage. -/
def directAnimation (c : Command) (name : String) (a : Animated α) : StageAct α Unit := do
  if c.verb == "fade" then
    tween a.number .alpha (.number a.alpha) (.number Scalar.zero)
      (← stage).effects.fade .linear { leaving := some (.animation name), command := c.id }
  else if c.verb == "move" then
    let placement ← need "position" c.params.position
    let finish ← coordinatesOf placement
    tween a.number .position (.tuple a.position) (.tuple finish) (← stage).effects.move
      .inOutSine { command := c.id }
  else if c.verb == "look" then
    let facing ← need "facing" c.params.facing
    change fun s => { s with animations := s.animations.change name fun a => { a with facing } }
  else signal (.unresolved c.id s!"animations cannot '{c.verb}'")

/-- A command to an animation. -/
def onAnimation (c : Command) : StageAct α Unit := do
  let name := c.target.getD ""
  let fading ← fadesIn c
  if c.verb == "appear" || fading then
    match (← stage).cast.animations.get? name with
    | none => signal (.unresolved c.id s!"no animation named '{name}'")
    | some sheet =>
      let number ← stageAnimation c name sheet (if fading then Scalar.zero else Scalar.one)
      if fading then
        tween number .alpha (.number Scalar.zero) (.number Scalar.one) (← stage).effects.fade
          .linear { command := c.id }
  else
    match (← stage).animations.get? name with
    | none => signal (.unresolved c.id s!"animation '{name}' is not on stage")
    | some a => directAnimation c name a

def onBackground (c : Command) : StageAct α Unit := do
  let id ← need "id" c.params.id
  change fun s => { s with background := id }

def onGui (c : Command) : StageAct α Unit := do
  let panel ← need "element" c.params.element
  let sprite ← need "id" c.params.id
  let picture : PanelPicture := { sprite, scaling := c.params.scaling.getD .auto }
  change fun s => { s with panels := s.panels.put panel picture }

/-- The emotion that a line of dialogue gives to its speaker. -/
def changeEmotion (c : Command) (emotion : String) : StageAct α Unit := do
  let name := c.target.getD ""
  match (← stage).actors.get? name with
  | none =>
    signal (.unresolved c.id s!"emotion '{emotion}' for '{quotedTarget c}': not on stage")
  | some actor =>
    if actor.character.hasEmotion (some emotion) (some actor.outfit) then
      change fun s => { s with actors := s.actors.change name fun a => { a with emotion } }
    else signal (.unresolved c.id s!"'{actor.character.name}' has no emotion '{emotion}'")

/-- A line of dialogue comes into the box. -/
def onDialogue (c : Command) : StageAct α Unit := do
  let speaker ← need "speaker" c.params.speaker
  match c.params.emotion.join with
  | some emotion => changeEmotion c emotion
  | none => pure ()
  let narrating ← need "narrator" c.params.narrator
  change fun s => { s with narrating }
  let text ← need "text" c.params.text
  change fun s => { s with box := s.box.show speaker text }

/-- A log entry is added below; the oldest lines go. -/
def onLog (c : Command) : StageAct α Unit := do
  let text ← need "text" c.params.text
  change fun s =>
    let lines := s.log ++ [text]
    { s with log := lines.drop (lines.length - s.logCapacity) }

def onScene (c : Command) : StageAct α Unit := do
  let name ← need "name" c.params.name
  change fun s => { s with scene := name }

/-- A command is carried out. -/
def handle (c : Command) : StageAct α Unit :=
  match c.subsystem with
  | .actor => onActor c
  | .animation => onAnimation c
  | .background => onBackground c
  | .gui => onGui c
  | .dialogue => onDialogue c
  | .log => onLog c
  | .scene => onScene c

/-- Time passes on stage. -/
def update (dt : α) : StageAct α Unit := do
  host.update dt
  change fun s =>
    { s with
      box := s.box.update dt
      animations := s.animations.map fun (n, a) => (n, { a with elapsed := a.elapsed + dt }) }

end StageAct

/-- The stage after a press of the player, and whether the story is to go on. A press completes a
    line that is still appearing, then takes a complete one out of the box; with no line there it
    goes to the story if that waits for one. -/
def Stage.press {α : Type} [Scalar α] (awaiting : Bool) (s : Stage α) : Bool × Stage α :=
  if s.isDialogueVisible then
    let (goesOn, box) := s.box.press
    if goesOn then (true, { s with box := box.hide }) else (false, { s with box := box })
  else (awaiting, s)

end VisualNovel

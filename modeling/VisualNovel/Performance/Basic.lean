import VisualNovel.Stage.Stage
import VisualNovel.Story.Bus
import VisualNovel.Story.Story

/-!
A performance: a story and, usually, a stage, joined by a bus. Commands of the story go over the
bus to the stage; signals of the stage go back to the story. Other handlers may be registered too.
They react to commands with cues, that is by operating the performance from inside the delivery,
which may cause further deliveries before the first is over.
-/

namespace VisualNovel

/-- One operation on a performance. A handler that is registered brings its response: given how
    many commands it has noticed and the command at hand, it either ignores that, or notices it
    and gives cues. -/
inductive Cue (α : Type) where
  | start (id : ScriptId)
  | tick
  | countTick
  | advance
  | complete (command : Int)
  | unresolved (command : Int) (reason : String)
  /-- An acknowledgement that comes over the bus, as those of the stage do. -/
  | signal (s : Signal)
  | register (id : ScriptId) (text : String)
  | write (path : Path) (node : FileNode)
  | setVariable (name : String) (value : Data)
  | eraseVariable (name : String)
  | drain
  | subscribe (s : Subsystem) (respond : Nat → Command → Option (List (Cue α)))
  | publish (c : Command)
  /-- Time passes on stage. -/
  | update (dt : α)
  /-- Time passes on stage, then the story goes on. -/
  | frame (dt : α)
  /-- The player presses; the stage is told whether the story waits for that. -/
  | press (awaiting : Bool)
  /-- The player presses, and the story goes on if the stage lets the press through. -/
  | pressThrough
  /-- A sprite of a character of the cast is looked up. -/
  | sprite (character : String) (emotion outfit : Option String)

/-- What an operation answers. -/
inductive CueAnswer where
  | nothing
  | flag (b : Bool)
  | commands (cs : List Command)
  | count (n : Nat)
  | ids (ids : List Int)
  | value (d : Option Data)
  | sprite (id : Option String) (character : String)

/-- What a registered handler saw: a command, with the cursor at that moment, or the answer to one
    of its cues. -/
inductive Sight where
  | command (id : Int) (verb : String) (cursor : Option Cursor)
  | answer (a : CueAnswer)

/-- A handler with the number of commands that it has noticed. -/
structure Handler (α : Type) where
  noticed : Nat
  respond : Nat → Command → Option (List (Cue α))

/-- Who is registered with the bus: the stage, or a handler by its number. -/
inductive Subscriber where
  | stage
  | handler (number : Nat)
  deriving Repr, DecidableEq

structure Performance (α : Type) where
  files : FileTree := {}
  repertoire : Repertoire
  story : Story
  bus : Bus Subscriber := {}
  stage : Option (Stage α) := none
  handlers : Array (Handler α) := #[]
  sights : Trail Sight := {}

/-- Why an operation on a performance fails. -/
inductive PlayError where
  | story (e : StoryError)
  | param (e : ParamError)
  | compile (e : Script.CompileError)
  /-- The cast has no character of this name. -/
  | noCharacter (name : String)
  /-- Deliveries nest deeper than allowed. -/
  | tooDeep

abbrev Play (α β : Type) := Act PlayError (Performance α) β

namespace Performance

variable {α : Type}

/-- What the registered handlers saw, in order. -/
def seen (p : Performance α) : List Sight := p.sights.toList

/-- The performance with a stage that takes the commands of every subsystem. -/
def withStage (p : Performance α) (stage : Stage α) : Performance α :=
  { p with
    stage := some stage
    bus := (Vocabulary.members (α := Subsystem)).foldl (fun b s => b.register s .stage) p.bus }

/-- The story hears a signal. -/
def hear (s : Signal) (p : Performance α) : Performance α :=
  match s with
  | .completed command => { p with story := (p.story.effectCompleted command).2 }
  | .unresolved command reason => { p with story := p.story.unresolved command reason }

end Performance

namespace Play

variable {α : Type} [Scalar α]

def changeStory (f : Story → Story) : Play α Unit :=
  Act.change fun p => { p with story := f p.story }

/-- A signal to the story that says whether it was honoured. -/
def signalStory (f : Story → Bool × Story) : Play α Bool := do
  let (honoured, story) := f (← get).story
  changeStory fun _ => story
  return honoured

/-- Work on the stage. The story hears the signals it gave, in order, even if it failed. -/
def onStage (work : StageAct α Unit) : Play α Unit := do
  match (← get).stage with
  | none => return
  | some stage =>
    let (outcome, run) := work.outcome { stage }
    Act.change fun p =>
      run.signals.foldl (fun p s => p.hear s) { p with stage := some run.stage }
    match outcome with
    | .ok () => return
    | .error e => throw (.param e)

/-- The story is abandoned, and the script is started if it can be loaded. -/
def start (id : ScriptId) : Play α Unit := do
  changeStory Story.abandon
  let p ← get
  match p.repertoire.load p.files id with
  | .error e => throw (.story (.load e))
  | .ok (shelved, repertoire) =>
    Act.change fun p => { p with repertoire }
    match shelved.script.scenes.head? with
    | none => throw (.story (.noScene ""))
    | some scene => changeStory fun s => s.begin id shelved.script scene.name

/-- Steps of the story for as long as its cursor is the one with this number and is ready, at
    most so many. The commands, in order; `deliver` carries each out before the next step. -/
def steps (deliver : Command → Play α Unit) (number : Nat) : (count : Nat) → Play α (List Command)
  | 0 => return []
  | count + 1 => do
    let story := (← get).story
    match story.cursor with
    | none => return []
    | some c =>
      if c.number = number ∧ c.wait = .ready then
        let (outcome, story) := story.step c
        changeStory fun _ => story
        match outcome with
        | .error e => throw (.story e)
        | .ok none => return []
        | .ok (some command) =>
          deliver command
          return command :: (← steps deliver number count)
      else return []

/-- The story runs until it waits, ends, is started anew, or has made all the steps that its
    settings allow at once. -/
def tick (deliver : Command → Play α Unit) : Play α (List Command) := do
  let story := (← get).story
  match story.cursor with
  | none => return []
  | some c => steps deliver c.number story.settings.maxStepsPerTick.toNat

/-- A command goes over the bus. -/
def publish (react : Nat → Command → Play α Unit) (c : Command) : Play α Unit :=
  Bus.publish (return (← get).bus) (fun bus => Act.change fun p => { p with bus })
    (fun subscriber c =>
      match subscriber with
      | .stage => onStage (StageAct.handle c)
      | .handler number => react number c)
    c

/-- A press of the player reaches the stage; whether it lets the press through. -/
def press (awaiting : Bool) : Play α Bool := do
  match (← get).stage with
  | none => return awaiting
  | some stage =>
    let (goesOn, stage) := stage.press awaiting
    Act.change fun p => { p with stage := some stage }
    return goesOn

/-- A press of the player that makes the story go on if the stage lets it through. -/
def pressThrough : Play α Bool := do
  if ← press ((← get).story.wait == some .advance) then signalStory Story.advance
  else return false

/-- The character of the cast that has a name. -/
def character (name : String) : Play α Character := do
  match (← get).stage.bind fun stage => stage.cast.characters.get? name with
  | some c => return c
  | none => throw (.noCharacter name)

/-- One operation; `react` is what handlers do about commands. -/
def perform (react : Nat → Command → Play α Unit) : Cue α → Play α CueAnswer
  | .start id => do
    start id
    return .flag true
  | .tick => return .commands (← tick (publish react))
  | .countTick => return .count (← tick (publish react)).length
  | .advance => return .flag (← signalStory Story.advance)
  | .complete command => return .flag (← signalStory (·.effectCompleted command))
  | .unresolved command reason => do
    changeStory (·.unresolved command reason)
    return .nothing
  | .signal s => do
    Act.change (Performance.hear s)
    return .nothing
  | .register id text => do
    match Script.compile text none with
    | .error e => throw (.compile e)
    | .ok script =>
      match (← get).repertoire.register id script with
      | .error e => throw (.compile e)
      | .ok repertoire =>
        Act.change fun p => { p with repertoire }
        return .nothing
  | .write path node => do
    Act.change fun p => { p with files := p.files.write path node }
    return .nothing
  | .setVariable name value => do
    changeStory fun s => { s with bindings := s.bindings.put name value }
    return .nothing
  | .eraseVariable name => do
    let value := (← get).story.bindings.get? name
    changeStory fun s => { s with bindings := s.bindings.erase name }
    return .value value
  | .drain => do
    let (commands, bus) := (← get).bus.drain
    Act.change fun p => { p with bus }
    return .ids (commands.map (·.id))
  | .subscribe s respond => do
    Act.change fun p =>
      { p with
        bus := p.bus.register s (.handler p.handlers.size)
        handlers := p.handlers.push ⟨0, respond⟩ }
    return .nothing
  | .publish c => do
    publish react c
    return .nothing
  | .update dt => do
    onStage (StageAct.update dt)
    return .nothing
  | .frame dt => do
    onStage (StageAct.update dt)
    return .commands (← tick (publish react))
  | .press awaiting => return .flag (← press awaiting)
  | .pressThrough => return .flag (← pressThrough)
  | .sprite name emotion outfit => do
    let c ← character name
    return .sprite (c.sprite? emotion outfit) c.name

/-- What a handler does about a command, with deliveries nested at most `depth` deep. -/
def react : (depth : Nat) → Nat → Command → Play α Unit
  | 0, _, _ => throw .tooDeep
  | depth + 1, number, c => do
    let p ← get
    match p.handlers[number]? with
    | none => return
    | some handler =>
      match handler.respond handler.noticed c with
      | none => return
      | some cues =>
        Act.change fun p =>
          { p with
            handlers := p.handlers.modify number fun h => { h with noticed := h.noticed + 1 }
            sights := p.sights.push (.command c.id c.verb p.story.cursor) }
        cues.forM fun cue => do
          let answer ← perform (react depth) cue
          Act.change fun p => { p with sights := p.sights.push (.answer answer) }

/-- How deep deliveries may nest. -/
def depthLimit : Nat := 1000

/-- One operation from outside. -/
def cue (c : Cue α) : Play α CueAnswer := perform (react depthLimit) c

end Play

end VisualNovel

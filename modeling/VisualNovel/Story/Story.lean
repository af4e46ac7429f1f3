import VisualNovel.Script.Evaluation
import VisualNovel.Script.Printer
import VisualNovel.Settings.Runtime
import VisualNovel.Story.Command
import VisualNovel.Story.Cursor
import VisualNovel.Story.History

/-!
The story: a script being played, one directive at a time. A step turns the directive at the
cursor into a command; dialogue waits for the player, moves and fades wait for their effect, and
everything else lets the story go on. Signals that the story does not wait for change nothing but
the diagnostics.

A step leaves the story in its new state before its command is handed on, so that whoever carries
out the command may signal back at once.
-/

namespace VisualNovel

/-- Why a story cannot be started or go on. -/
inductive StoryError where
  | load (e : LoadError)
  | param (e : ParamError)
  | noScene (name : String)
  deriving Repr, DecidableEq

/-- A command that was handed on, and the number of the cursor that it came from. -/
structure Issue where
  cursor : Nat
  command : Command

/-- The state of a story and what it has recorded. Command ids count up over its whole life.
    `issued` is a record only: nothing that the story does depends on it. -/
structure Story where
  cursor : Option Cursor := none
  bindings : Variables := {}
  settings : RuntimeSettings := {}
  warnings : Trail Warning := {}
  history : History := {}
  issued : Trail Issue := {}
  nextId : Int := 1
  nextCursor : Nat := 0

namespace Story

def wait (s : Story) : Option Wait := s.cursor.map (·.wait)

def isHalted (s : Story) : Bool := s.wait == some .halted

/-- What was reported, in order. -/
def diagnostics (s : Story) : List Warning := s.warnings.toList

/-- The commands handed on so far, in order. -/
def commands (s : Story) : List Command := s.issued.toList.map (·.command)

def warn (s : Story) (w : Warning) : Story := { s with warnings := s.warnings.push w }

@[simp] theorem diagnostics_warn (s : Story) (w : Warning) :
    (s.warn w).diagnostics = s.diagnostics ++ [w] :=
  s.warnings.toList_push w

/-- What the story does, in the words of a warning. -/
def situation (s : Story) : String :=
  match s.cursor with
  | some c => c.situation
  | none => "no script is running"

/-! ### Signals -/

/-- The story without a cursor. -/
def abandon (s : Story) : Story := { s with cursor := none }

/-- The story at the first scene of a script. -/
def begin (s : Story) (id : ScriptId) (script : Script) (scene : String) : Story :=
  { s with
    cursor := some { id := id, script := script, scene := scene, number := s.nextCursor }
    nextCursor := s.nextCursor + 1 }

/-- The player asks to go on; honoured while the story waits for that. -/
def advance (s : Story) : Bool × Story :=
  match s.cursor with
  | some c =>
    if c.wait = .advance then (true, { s with cursor := some c.resume })
    else (false, s.warn (.ignoredAdvance s.situation))
  | none => (false, s.warn (.ignoredAdvance s.situation))

/-- The story waits for the effect of this command. -/
def awaits (c : Cursor) (command : Int) : Bool :=
  c.wait == .effect && c.pending == some command

/-- An effect is over; honoured while the story waits for that effect. -/
def effectCompleted (s : Story) (command : Int) : Bool × Story :=
  match s.cursor with
  | some c =>
    if awaits c command then (true, { s with cursor := some c.resume })
    else (false, s.warn (.ignoredCompletion command s.situation))
  | none => (false, s.warn (.ignoredCompletion command s.situation))

/-- A command could not be carried out. This is recorded, and a story that waits for the effect of
    the command goes on as if it were over. -/
def unresolved (s : Story) (command : Int) (reason : String) : Story :=
  let s := s.warn (.unresolved command reason)
  match s.cursor with
  | some c => if awaits c command then { s with cursor := some c.resume } else s
  | none => s

/-! ### Steps -/

/-- The name under which a speaker's line is shown. -/
def speakerName (s : Story) (speaker : Speaker) : Option String × List Warning :=
  match speaker.kind with
  | .mainCharacter =>
    let (text, ws) := Expression.evaluate s.bindings [.variable s.settings.playerNameVariable]
    (some text, ws)
  | .narrator => (some "", [])
  | .character => (speaker.name, [])

/-- What a directive says under the story's variables, and what is to report about it. -/
def resolve (s : Story) : Directive → Resolved × List Warning
  | .dialogue d =>
    let (name, ws) := s.speakerName d.speaker
    let (text, ws') := d.text.evaluate s.bindings
    ({ speaker := some name, text := some (some text) }, ws ++ ws')
  | .log message =>
    let (text, ws) := message.evaluate s.bindings
    ({ text := some (some text) }, ws)
  | .stage _ => ({}, [])

/-- The entry that a directive leaves in the transcript, if it leaves one. -/
def entry? (d : Directive) (resolved : Resolved) : Option HistoryEntry :=
  let speaker := (resolved.speaker.bind id).filter (!·.isEmpty)
  let text := resolved.text.join.getD ""
  match d with
  | .dialogue line => some ⟨speaker, text, line.written⟩
  | .log message => some ⟨speaker, text, writtenLog message⟩
  | .stage _ => none

/-- Where the cursor goes with the command of a directive that is no jump. -/
def moveOn (s : Story) (c : Cursor) (d : Directive) (command : Int) : Cursor :=
  match d with
  | .dialogue _ => c.await .advance command
  | .log _ => if s.settings.logWaitsForAdvance then c.await .advance command else c.skip
  | .stage direction =>
    if direction.action.isDurational then c.await .effect command else c.skip

/-- One step of a story whose cursor is ready: the command to hand on, none at the curtain, and
    the story after it. -/
def step (s : Story) (c : Cursor) : Except StoryError (Option Command) × Story :=
  match c.scene? with
  | none => (.error (.noScene c.scene), s)
  | some scene =>
    match scene.directive? c.index with
    | none => (.ok none, { s with cursor := some c.halt })
    | some d =>
      let (resolved, warnings) := s.resolve d
      let s := { s with nextId := s.nextId + 1, warnings := s.warnings.append warnings }
      match d.dispatch resolved (s.nextId - 1) with
      | .error e => (.error (.param e), s)
      | .ok command =>
        let issued := s.issued.push ⟨c.number, command⟩
        match d with
        | .stage direction =>
          if direction.isJump then
            let s := { s with cursor := some c.leave }
            match command.params.name.join with
            | none => (.error (.param (.missing "name")), s)
            | some target =>
              (.ok (some command), { s with issued, cursor := some (c.leave.enter target) })
          else (.ok (some command), { s with issued, cursor := some (s.moveOn c d command.id) })
        | _ =>
          let history := match entry? d resolved with
            | some e => s.history.record e
            | none => s.history
          (.ok (some command),
            { s with history, issued, cursor := some (s.moveOn c d command.id) })

end Story

end VisualNovel

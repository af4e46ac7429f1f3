import VisualNovel.Story.Bus
import VisualNovel.Act

/-!
A bus on its own, with named handlers that react to a command by operating the bus again, and with
named listeners for what comes back from the subsystems. All that happens is noted in a journal.

Reactions may nest without end, so they are played with a bound on their depth.
-/

namespace VisualNovel.Switchboard

/-- What is noted. An event is known by its place in the journal: a handler by the place where it
    was registered, and what it is handed by the place where that was published. -/
inductive Event where
  | registered (handler : String) (subsystem : Subsystem)
  | published (c : Command)
  | handed (publication registration : Nat) (handler : String) (c : Command)
  | drained (commands : List Command)
  | completed (listener : String) (id : Int)
  | unresolved (listener : String) (id : Int) (reason : String)

mutual

/-- One operation on a bus. A handler that is registered brings its response: how it reacts to a
    command after all that has happened so far. The journal is never the same twice, so a handler
    may react to the same command in another way each time. -/
inductive Op where
  | subscribe (name : String) (subsystem : Subsystem) (respond : Trail Event → Command → Reaction)
  | listenCompleted (name : String)
  | listenUnresolved (name : String)
  | publish (c : Command)
  | drain
  | complete (id : Int)
  | unresolved (id : Int) (reason : String)

/-- What a handler does: one operation after another. The next one may depend on what has happened
    in the meantime. -/
inductive Reaction where
  | done
  | act (op : Op) (next : Trail Event → Reaction)

end

instance : Inhabited Op := ⟨.drain⟩

/-- Operations that are settled beforehand. -/
def Reaction.ofList : List Op → Reaction
  | [] => .done
  | op :: rest => .act op fun _ => ofList rest

/-- A handler is registered that reacts to each command with the same operations. -/
def Op.register (name : String) (subsystem : Subsystem) (reaction : List Op) : Op :=
  .subscribe name subsystem fun _ _ => .ofList reaction

/-- What the handlers and listeners see: a delivery to a handler or to a listener. -/
inductive Notice where
  | delivered (handler : String) (id : Int)
  | completed (listener : String) (id : Int)
  | unresolved (listener : String) (id : Int) (reason : String)
  deriving Repr, DecidableEq

def Event.notice? : Event → Option Notice
  | .handed _ _ handler c => some (.delivered handler c.id)
  | .completed listener id => some (.completed listener id)
  | .unresolved listener id reason => some (.unresolved listener id reason)
  | _ => none

/-- A handler with the place of its registration. -/
structure Handler where
  registration : Nat
  name : String
  respond : Trail Event → Command → Reaction

structure Board where
  bus : Bus Handler := {}
  completedListeners : List String := []
  unresolvedListeners : List String := []
  journal : Trail Event := {}

namespace Board

/-- What has happened, in order. -/
def events (board : Board) : List Event := board.journal.toList

/-- The deliveries among it. -/
def log (board : Board) : List Notice := board.events.filterMap Event.notice?

def note (board : Board) (e : Event) : Board := { board with journal := board.journal.push e }

end Board

inductive Failure where
  | tooDeep
  deriving Repr, DecidableEq

abbrev Playing (α : Type) := Act Failure Board α

def note (e : Event) : Playing Unit := Act.change fun board => board.note e

/-- The operations of a reaction, each with `perform`. -/
def react (perform : Op → Playing (Option (List Command))) : Reaction → Playing Unit
  | .done => return ()
  | .act op next => do
    discard (perform op)
    react perform (next (← get).journal)

/-- One operation, with reactions nested at most `depth` deep; the commands that it drains. -/
def play : (depth : Nat) → Op → Playing (Option (List Command))
  | 0, _ => throw .tooDeep
  | depth + 1, op => do
    match op with
    | .subscribe name subsystem respond =>
      let registration := (← get).journal.length
      note (.registered name subsystem)
      Act.change fun board =>
        { board with bus := board.bus.register subsystem ⟨registration, name, respond⟩ }
      return none
    | .listenCompleted name =>
      Act.change fun board =>
        { board with completedListeners := board.completedListeners ++ [name] }
      return none
    | .listenUnresolved name =>
      Act.change fun board =>
        { board with unresolvedListeners := board.unresolvedListeners ++ [name] }
      return none
    | .publish c =>
      let publication := (← get).journal.length
      note (.published c)
      Bus.publish (return (← get).bus) (fun bus => Act.change fun board => { board with bus })
        (fun handler c => do
          note (.handed publication handler.registration handler.name c)
          react (play depth) (handler.respond (← get).journal c))
        c
      return none
    | .drain =>
      let (commands, bus) := (← get).bus.drain
      note (.drained commands)
      Act.change fun board => { board with bus }
      return some commands
    | .complete id =>
      (← get).completedListeners.forM fun name => note (.completed name id)
      return none
    | .unresolved id reason =>
      (← get).unresolvedListeners.forM fun name => note (.unresolved name id reason)
      return none

/-- How deep reactions may nest. -/
def depthLimit : Nat := 1000

/-- One operation on a board: its answer and the board after it. -/
def perform (board : Board) (op : Op) : Except Failure (Option (List Command)) × Board :=
  (play depthLimit op).outcome board

end VisualNovel.Switchboard

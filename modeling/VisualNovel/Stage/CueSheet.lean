import VisualNovel.Stage.Animator
import VisualNovel.Table
import VisualNovel.Trail

/-!
Cue sheets: animator operations as data, which tweens carry as what is to be done at their end.
A sheet is played on plain named objects, and a journal tells all that happens: which tween gave
which attribute what value, whose callbacks were called, who was started and who was cancelled,
and in which operations.

A tween ends at most once, so each operation of a sheet is played at most once; the number of
operations therefore bounds both how deep callbacks nest and how many tweens they add.
-/

namespace VisualNovel

/-- One operation on an animator. Tweens have names; a later one takes an earlier one's name.
    `make` with `runs` adds the new tween, and `start` adds one that is there.
    `followUp` is what is done when the tween ends; a silent tween has none. -/
inductive CueOp (α : Type) where
  | make (runs : Bool) (name object slot : String) (start finish : TweenValue α) (duration : α)
      (ease : Ease) (elapsed : α) (followUp : Option (List (CueOp α)))
  | start (name : String)
  | update (dt : α)
  | updateOne (name : String) (dt : α)
  | finish (name : String)
  | finishAll
  | cancel (object : String)

instance {α : Type} : Inhabited (CueOp α) := ⟨.finishAll⟩

mutual

/-- The number of operations in an operation: itself and those that follow it. -/
def CueOp.size {α : Type} : CueOp α → Nat
  | .make _ _ _ _ _ _ _ _ _ (some ops) => 1 + sizes ops
  | _ => 1

def sizes {α : Type} : List (CueOp α) → Nat
  | [] => 0
  | op :: rest => op.size + sizes rest

end

/-- What kind of operation it is, without its data. -/
inductive CueKind where
  | make
  | start
  | update
  | updateOne
  | finish
  | finishAll
  | cancel
  deriving Repr, DecidableEq

namespace CueKind

/-- The operation asks for one tween by its name, past the animator. -/
def isDirect : CueKind → Bool
  | updateOne | finish => true
  | _ => false

/-- The operation goes through the tweens that run when it begins, whatever becomes of them on the
    way. -/
def goesByCopy : CueKind → Bool
  | update | finishAll => true
  | _ => false

end CueKind

def CueOp.kind {α : Type} : CueOp α → CueKind
  | .make .. => .make
  | .start .. => .start
  | .update .. => .update
  | .updateOne .. => .updateOne
  | .finish .. => .finish
  | .finishAll => .finishAll
  | .cancel .. => .cancel

namespace CueSheet

/-- An operation that has begun. Operations are numbered in the order in which they begin. -/
structure Call where
  number : Nat
  kind : CueKind
  /-- The tweens that ran when it began. -/
  running : List Nat
  deriving Repr, DecidableEq

/-- An object as one tween has it. Whoever has it, it is the same object. -/
structure Grip where
  object : String
  tween : Nat
  deriving Repr, DecidableEq

instance : BEq Grip := ⟨fun g g' => g.object == g'.object⟩

/-- What a tween does at its end: its name is noted and its operations are played. -/
structure Ending (α : Type) where
  tween : Nat
  name : String
  ops : List (CueOp α)

/-- A tween of a sheet. -/
abbrev Motion (α : Type) := Tween Grip String (Ending α) α

/-- The animator of a sheet. -/
abbrev Runner (α : Type) := Animator Grip String (Ending α) α

/-- What can happen while a sheet is played. -/
inductive Event (α : Type) where
  /-- A tween gives its attribute a value. -/
  | gave (tween : Nat) (object slot : String) (value : TweenValue α)
  /-- The callback of a tween is called. -/
  | called (tween : Nat) (name : String)
  /-- A tween has been added to those that run. -/
  | started (tween : Nat)
  /-- The tweens on an object, as many as ran, have been taken away from those that run. -/
  | cancelled (object : String) (tweens : List Nat)
  deriving DecidableEq

/-- Something that happens, and the operations in which it does, the innermost first. -/
structure Note (α : Type) where
  calls : List Call
  event : Event α
  deriving DecidableEq

/-- What a cue sheet is played on. -/
structure Board (α : Type) where
  /-- The objects that there are. -/
  objects : List String
  animator : Runner α := {}
  /-- The numbers of tweens by name. -/
  named : Table String Nat := []
  /-- How many operations have begun. -/
  calls : Nat := 0
  /-- What has happened, in order. -/
  journal : Trail (Note α) := {}

/-- The values of attributes, by object and attribute, after all that has been noted. -/
def valuesAfter {α : Type} (notes : List (Note α)) : Table (String × String) (TweenValue α) :=
  notes.foldl (fun values note =>
    match note.event with
    | .gave _ object slot value => values.put (object, slot) value
    | _ => values) []

namespace Board

variable {α : Type}

def note (calls : List Call) (event : Event α) (board : Board α) : Board α :=
  { board with journal := board.journal.push ⟨calls, event⟩ }

/-- The values of attributes, by object and attribute. -/
def values (board : Board α) : Table (String × String) (TweenValue α) :=
  valuesAfter board.journal.toList

/-- The names of the tweens whose callbacks were called, in order. -/
def ended (board : Board α) : List String :=
  board.journal.toList.filterMap fun note =>
    match note.event with
    | .called _ name => some name
    | _ => none

/-- The operations that go on once one more begins, the innermost first. -/
def callsWith (kind : CueKind) (within : List Call) (board : Board α) : List Call :=
  ⟨board.calls, kind, board.animator.running⟩ :: within

/-- The board when one more operation begins. -/
def begin (board : Board α) : Board α := { board with calls := board.calls + 1 }

/-- The board with a further tween of a name, which does not run yet. -/
def make (name : String) (tween : Motion α) (board : Board α) : Board α :=
  { board with
    animator := board.animator.make tween
    named := board.named.put name board.animator.pool.size }

/-- The tweens on an object that run. -/
def runningOn (object : String) (board : Board α) : List Nat :=
  board.animator.running.filter fun i =>
    match board.animator.tween? i with
    | some tw => tw.object.object == object
    | none => false

end Board

inductive Failure where
  /-- A tween's start and end do not mix. -/
  | mismatch
  | unknownTween (name : String)
  | unknownObject (name : String)
  /-- More callbacks than the sheet has operations. -/
  | tooDeep
  deriving Repr, DecidableEq

variable {α : Type} [Scalar α]

abbrev Playing (α β : Type) := Act Failure (Board α) β

/-- The board as the owner of its animator, in operations that go on; `react` plays the operations
    of a tween that ends. -/
def host (calls : List Call) (react : List (CueOp α) → Playing α Unit) (slack : Nat) :
    Host (Board α) Failure Grip String (Ending α) α where
  animator board := board.animator
  setAnimator a board := { board with animator := a }
  write grip slot value := Board.note calls (.gave grip.tween grip.object slot value)
  fire ending := do
    Act.change (Board.note calls (.called ending.tween ending.name))
    react ending.ops
  mismatch := .mismatch
  slack := slack

/-- The number of the tween that has a name. -/
def number (name : String) : Playing α Nat := do
  match (← get).named.get? name with
  | some i => return i
  | none => throw (.unknownTween name)

/-- An operation can only be about an object that there is. -/
def require (object : String) : Playing α Unit := do
  if !(← get).objects.contains object then throw (.unknownObject object)

/-- A tween starts to run. -/
def start (calls : List Call) (react : List (CueOp α) → Playing α Unit) (slack i : Nat) :
    Playing α (Option Bool) := do
  (host calls react slack).add i
  Act.change (Board.note calls (.started i))
  return some true

/-- What an operation does once it has begun. The answer is that of the operation, if it has
    one. -/
def carryOut (calls : List Call) (react : List (CueOp α) → Playing α Unit) (slack : Nat) :
    CueOp α → Playing α (Option Bool)
  | .make runs name object slot first last duration ease elapsed followUp => do
    require object
    let i := (← get).animator.pool.size
    Act.change (Board.make name
      { object := ⟨object, i⟩, slot, start := first, finish := last, duration, ease, elapsed
        onDone := followUp.map fun ops => ⟨i, name, ops⟩ })
    if runs then start calls react slack i else return none
  | .start name => do start calls react slack (← number name)
  | .update dt => do
    (host calls react slack).update dt
    return none
  | .updateOne name dt => do return some (← (host calls react slack).advance (← number name) dt)
  | .finish name => do
    (host calls react slack).finish (← number name)
    return none
  | .finishAll => do
    (host calls react slack).finishAll
    return none
  | .cancel object => do
    require object
    let tweens := (← get).runningOn object
    (host calls react slack).cancel ⟨object, 0⟩
    Act.change (Board.note calls (.cancelled object tweens))
    return none

/-- One operation, with callbacks nested at most `depth` deep, in the course of others. -/
def play : (depth : Nat) → (within : List Call) → CueOp α → Playing α (Option Bool)
  | 0, _, _ => throw .tooDeep
  | depth + 1, within, op => do
    let calls := (← get).callsWith op.kind within
    Act.change Board.begin
    carryOut calls (fun ops => ops.forM fun o => discard (play depth calls o)) depth op

/-- The outcome of one operation of a sheet, and the board after it. -/
abbrev Outcome (α : Type) := Except Failure (Option Bool) × Board α

/-- A sheet played from the start on some objects: after each operation its outcome. A failure
    ends only the operation in which it happens. -/
def rehearse (objects : List String) (ops : List (CueOp α)) : List (Outcome α) :=
  go { objects } ops
where
  go (board : Board α) : List (CueOp α) → List (Outcome α)
    | [] => []
    | op :: rest =>
      let outcome := (play (sizes ops + 1) [] op).outcome board
      outcome :: go outcome.2 rest

end CueSheet

end VisualNovel

import VisualNovel.Story.Command
import VisualNovel.Trail

/-!
The bus between the story and the parts that carry out its commands. A command goes to every
handler that its subsystem has at that moment, in the order of registration; a command without a
handler waits in the outbox until it is drained.
-/

namespace VisualNovel

/-- Handlers of type `η` by subsystem, in the order of registration, and the waiting commands. -/
structure Bus (η : Type) where
  handlers : List (Subsystem × η) := []
  waiting : Trail Command := {}

namespace Bus

variable {η : Type}

def register (b : Bus η) (s : Subsystem) (handler : η) : Bus η :=
  { b with handlers := b.handlers ++ [(s, handler)] }

/-- The handlers of a subsystem, in the order of registration. -/
def recipients (b : Bus η) (s : Subsystem) : List η :=
  b.handlers.filterMap fun (t, handler) => if t = s then some handler else none

/-- The commands that wait, in the order of publication. -/
def outbox (b : Bus η) : List Command := b.waiting.toList

def postpone (b : Bus η) (c : Command) : Bus η := { b with waiting := b.waiting.push c }

@[simp] theorem outbox_postpone (b : Bus η) (c : Command) :
    (b.postpone c).outbox = b.outbox ++ [c] :=
  b.waiting.toList_push c

def drain (b : Bus η) : List Command × Bus η := (b.outbox, { b with waiting := {} })

/-- A command on its way: handed to the recipients it has now, or postponed. `get` and `put` say
    where the bus is kept; what a handler does may change it. -/
def publish {m : Type → Type} [Monad m] (get : m (Bus η)) (put : Bus η → m Unit)
    (deliver : η → Command → m Unit) (c : Command) : m Unit := do
  let b ← get
  match b.recipients c.subsystem with
  | [] => put (b.postpone c)
  | handlers => handlers.forM fun handler => deliver handler c

end Bus

end VisualNovel

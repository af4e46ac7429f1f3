import VisualNovel.Act
import VisualNovel.Stage.Tween

/-!
The animator runs tweens side by side. A new tween on an attribute that is already driven puts the
running one at its end first, and ending a tween may call back into whatever owns the animator,
which may use the animator again before the first call is over. So tweens are shared: the animator
holds their numbers, and every tween ever made stays in the pool under its number.

The owner is a `Host`: it keeps the animator in its state, lets tweens write attributes and
answers their callbacks.
-/

namespace VisualNovel

/-- Every tween made so far, by number, and the numbers of those that run, oldest first. -/
structure Animator (ω τ κ α : Type) where
  pool : Array (Tween ω τ κ α) := #[]
  running : List Nat := []

/-- The owner of an animator, with a state `σ` and failures `ε`. -/
structure Host (σ ε ω τ κ α : Type) where
  animator : σ → Animator ω τ κ α
  setAnimator : Animator ω τ κ α → σ → σ
  /-- An attribute takes a value. -/
  write : ω → τ → TweenValue α → σ → σ
  /-- What a tween was to do at its end is done. -/
  fire : κ → Act ε σ Unit
  /-- The failure of a tween whose start and end do not mix. -/
  mismatch : ε
  /-- How many tweens callbacks can still add while the animator looks through those it runs. -/
  slack : Nat

namespace Animator

variable {ω τ κ α : Type}

def isBusy (a : Animator ω τ κ α) : Bool := !a.running.isEmpty

def tween? (a : Animator ω τ κ α) (i : Nat) : Option (Tween ω τ κ α) := a.pool[i]?

/-- The animator with one tween changed. -/
def change (a : Animator ω τ κ α) (i : Nat) (f : Tween ω τ κ α → Tween ω τ κ α) :
    Animator ω τ κ α :=
  { a with pool := a.pool.modify i f }

/-- The animator with a further tween that does not run yet; its number is the pool's size. -/
def make (a : Animator ω τ κ α) (tw : Tween ω τ κ α) : Animator ω τ κ α :=
  { a with pool := a.pool.push tw }

def isDone (a : Animator ω τ κ α) (i : Nat) : Bool :=
  match a.tween? i with
  | some tw => tw.isDone
  | none => true

/-- The animator without the tweens that are done. -/
def sweep (a : Animator ω τ κ α) : Animator ω τ κ α :=
  { a with running := a.running.filter fun i => !a.isDone i }

/-- The animator without the tweens on an object. -/
def cancel [BEq ω] (object : ω) (a : Animator ω τ κ α) : Animator ω τ κ α :=
  { a with
    running := a.running.filter fun i =>
      match a.tween? i with
      | some tw => !(tw.object == object)
      | none => true }

end Animator

namespace Host

variable {σ ε ω τ κ α : Type} [Scalar α]

/-- The host's animator, changed. -/
def modify (h : Host σ ε ω τ κ α) (f : Animator ω τ κ α → Animator ω τ κ α) (s : σ) : σ :=
  h.setAnimator (f (h.animator s)) s

/-- A tween goes to its end value and its callback runs, once. -/
def finish (h : Host σ ε ω τ κ α) (i : Nat) : Act ε σ Unit := do
  match (h.animator (← get)).tween? i with
  | none => return
  | some tw =>
    if tw.isDone then return
    Act.change fun s =>
      h.modify (·.change i fun tw => { tw with isDone := true })
        (h.write tw.object tw.slot tw.finish s)
    match tw.onDone with
    | some k => h.fire k
    | none => return

/-- A tween runs for a time; the answer says whether it is done. -/
def advance (h : Host σ ε ω τ κ α) (i : Nat) (dt : α) : Act ε σ Bool := do
  match (h.animator (← get)).tween? i with
  | none => return true
  | some tw =>
    if tw.isDone then return true
    let tw := { tw with elapsed := tw.elapsed + dt }
    Act.change (h.modify (·.change i fun _ => tw))
    match tw.value? with
    | none => throw h.mismatch
    | some value =>
      Act.change (h.write tw.object tw.slot value)
      if tw.isOver then h.finish i
      return (h.animator (← get)).isDone i

/-- The running tweens that drive the same attribute as tween `i` go to their ends, one after the
    other. The look-through goes by position in the list as it is at each moment: callbacks may
    shorten it or make it longer. -/
def supersede [BEq ω] [BEq τ] (h : Host σ ε ω τ κ α) (i : Nat) :
    (steps position : Nat) → Act ε σ Unit
  | 0, _ => return
  | steps + 1, position => do
    let a := h.animator (← get)
    match a.running[position]? with
    | none => return
    | some j =>
      match a.tween? i, a.tween? j with
      | some tw, some other => if other.drivesSame tw then h.finish j
      | _, _ => pure ()
      h.supersede i steps (position + 1)

/-- A tween that was made starts to run. -/
def add [BEq ω] [BEq τ] (h : Host σ ε ω τ κ α) (i : Nat) : Act ε σ Unit := do
  let a := h.animator (← get)
  h.supersede i (a.running.length + h.slack) 0
  Act.change (h.modify fun a => { a.sweep with running := a.sweep.running ++ [i] })

/-- All tweens that run now run for a time. -/
def update (h : Host σ ε ω τ κ α) (dt : α) : Act ε σ Unit := do
  (h.animator (← get)).running.forM fun i => discard (h.advance i dt)
  Act.change (h.modify Animator.sweep)

/-- All tweens that run now go to their ends. -/
def finishAll (h : Host σ ε ω τ κ α) : Act ε σ Unit := do
  (h.animator (← get)).running.forM h.finish
  Act.change (h.modify Animator.sweep)

/-- The tweens on an object stop where they are; their callbacks do not run. -/
def cancel [BEq ω] (h : Host σ ε ω τ κ α) (object : ω) : Act ε σ Unit :=
  Act.change (h.modify (Animator.cancel object))

end Host

end VisualNovel

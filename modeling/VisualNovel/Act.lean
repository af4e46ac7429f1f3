/-!
Computations that change a state and can fail. A failure does not undo what was done before it.
-/

namespace VisualNovel

/-- A computation on a state `σ` with failures `ε`. -/
abbrev Act (ε σ α : Type) := ExceptT ε (StateM σ) α

namespace Act

variable {ε σ α : Type}

/-- A plain change of the state. -/
def change (f : σ → σ) : Act ε σ Unit := modifyThe σ f

/-- A part of the state. -/
def view {β : Type} (f : σ → β) : Act ε σ β := return f (← get)

/-- A computation on a part of the state, as one on the whole. -/
def zoom {τ : Type} (part : τ → σ) (put : σ → τ → τ) (a : Act ε σ α) : Act ε τ α :=
  fun t =>
    let (r, s) := a.run.run (part t)
    (r, put s t)

/-- A computation with its failures renamed. -/
def mapFailure {δ : Type} (f : ε → δ) (a : Act ε σ α) : Act δ σ α :=
  fun s =>
    let (r, s') := a.run.run s
    (r.mapError f, s')

/-- The outcome of a computation and the state it leaves. -/
def outcome (a : Act ε σ α) (s : σ) : Except ε α × σ := a.run.run s

end Act

end VisualNovel

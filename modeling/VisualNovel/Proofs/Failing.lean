/-!
Computations that can fail: when one after another succeeds or fails, and what a failure is.
-/

namespace VisualNovel

/-- One computation after another succeeds if both do. -/
theorem bind_eq_ok {ε α β : Type} {x : Except ε α} {f : α → Except ε β} {b : β} :
    x >>= f = .ok b ↔ ∃ a, x = .ok a ∧ f a = .ok b := by
  cases x <;> simp [bind, Except.bind]

/-- One computation after another fails as the first one does or as the second. -/
theorem bind_eq_error {ε α β : Type} {x : Except ε α} {f : α → Except ε β} {e : ε} :
    x >>= f = .error e ↔ x = .error e ∨ ∃ a, x = .ok a ∧ f a = .error e := by
  cases x <;> simp [bind, Except.bind]

/-- What each step of a fold keeps, as long as it succeeds, holds at its end. -/
theorem foldlM_induction {ε α β : Type} {f : β → α → Except ε β} {I : β → Prop}
    (hf : ∀ s x s', I s → f s x = .ok s' → I s') {xs : List α} {s s' : β} (hs : I s)
    (h : xs.foldlM f s = .ok s') : I s' := by
  induction xs generalizing s with
  | nil =>
    cases h
    exact hs
  | cons x xs ih =>
    rw [List.foldlM_cons] at h
    obtain ⟨t, hstep, hrest⟩ := bind_eq_ok.1 h
    exact ih (hf s x t hs hstep) hrest

/-- Whatever a computation fails with is as `P` says. -/
def FailsWith {ε α : Type} (P : ε → Prop) (a : Except ε α) : Prop := ∀ e, a = .error e → P e

namespace FailsWith

variable {ε α β : Type} {P Q : ε → Prop} {a : Except ε α}

theorem ok (x : α) : FailsWith P (.ok x : Except ε α) := by
  intro e h
  cases h

theorem error {e : ε} (h : P e) : FailsWith P (.error e : Except ε α) := by
  intro e' he
  cases he
  exact h

theorem mono (ha : FailsWith P a) (h : ∀ e, P e → Q e) : FailsWith Q a :=
  fun e he => h e (ha e he)

/-- The second part of a computation runs on what the first part gives. -/
theorem bind {f : α → Except ε β} (ha : FailsWith P a)
    (hf : ∀ x, a = .ok x → FailsWith P (f x)) : FailsWith P (a >>= f) := by
  cases a with
  | ok x => exact hf x rfl
  | error e => exact error (ha e rfl)

theorem foldlM {f : β → α → Except ε β} {xs : List α}
    (hf : ∀ x ∈ xs, ∀ s, FailsWith P (f s x)) (s : β) : FailsWith P (xs.foldlM f s) := by
  induction xs generalizing s with
  | nil => exact ok s
  | cons x xs ih =>
    rw [List.foldlM_cons]
    apply bind (hf x List.mem_cons_self s)
    intro s' _
    exact ih (fun y hy => hf y (List.mem_cons_of_mem x hy)) s'

end FailsWith

end VisualNovel

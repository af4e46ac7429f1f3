import VisualNovel.Proofs.Script.WellFormed
import VisualNovel.Proofs.Story.Soundness

/-!
The story as seen from whoever carries out its commands: for which effect it waits, and what
signals make of that.
-/

namespace VisualNovel

namespace Story

/-- The story waits for the effect of this command. -/
def AwaitsEffect (s : Story) (command : Int) : Prop := ∃ c, s.cursor = some c ∧ awaits c command

theorem awaits_iff {c : Cursor} {command : Int} :
    awaits c command ↔ c.wait = .effect ∧ c.pending = some command := by
  simp [awaits]

variable {s s' : Story} {command : Int}

theorem AwaitsEffect.of_cursor_eq (h : s'.AwaitsEffect command) (heq : s'.cursor = s.cursor) :
    s.AwaitsEffect command := by
  obtain ⟨c, hc, hawaits⟩ := h
  exact ⟨c, heq ▸ hc, hawaits⟩

/-- A story that is not waiting for an effect waits for none. -/
theorem not_awaitsEffect {c : Cursor} (hc : s.cursor = some c) (hwait : c.wait ≠ .effect) :
    ¬ s.AwaitsEffect command := by
  rintro ⟨c', hc', hawaits⟩
  rw [hc] at hc'
  cases hc'
  exact hwait (awaits_iff.1 hawaits).1

/-- Going on takes the story to where it waits for no effect, or leaves it where it is. -/
theorem AwaitsEffect.of_advance (h : s.advance.2.AwaitsEffect command) :
    s.AwaitsEffect command := by
  unfold Story.advance at h
  split at h
  · next c hc =>
    split at h
    · exact (not_awaitsEffect rfl (by simp [Cursor.resume]) h).elim
    · exact h.of_cursor_eq rfl
  · exact h.of_cursor_eq rfl

/-- A cursor that resumes waits for no effect; one that does not resume on a signal about a command
    does not wait for that command. -/
private theorem awaitsEffect_of_resumeIf {k : Int} {c : Cursor} (hc : s.cursor = some c)
    (hs' : s'.cursor = if awaits c k then some c.resume else some c)
    (h : s'.AwaitsEffect command) : s.AwaitsEffect command ∧ k ≠ command := by
  split at hs'
  · exact (not_awaitsEffect hs' (by simp [Cursor.resume]) h).elim
  · next hawaits =>
    have heq : s'.cursor = s.cursor := hs'.trans hc.symm
    refine ⟨h.of_cursor_eq heq, ?_⟩
    rintro rfl
    obtain ⟨c', hc', hawaits'⟩ := h.of_cursor_eq heq
    rw [hc] at hc'
    cases hc'
    exact hawaits hawaits'

private theorem not_awaitsEffect_of_cursor_eq_none (hc : s.cursor = none) :
    ¬ s.AwaitsEffect command := by
  rintro ⟨c, hc', -⟩
  rw [hc] at hc'
  cases hc'

theorem cursor_effectCompleted {c : Cursor} (hc : s.cursor = some c) (k : Int) :
    (s.effectCompleted k).2.cursor = if awaits c k then some c.resume else some c := by
  unfold effectCompleted
  rw [hc]
  dsimp only
  split
  · rfl
  · exact hc

theorem cursor_unresolved {c : Cursor} (hc : s.cursor = some c) (k : Int) (reason : String) :
    (s.unresolved k reason).cursor = if awaits c k then some c.resume else some c := by
  unfold unresolved
  simp only [warn, hc]
  split <;> rfl

/-- After an acknowledgement the story waits at most for what it waited for before, and for
    something else. -/
theorem AwaitsEffect.of_effectCompleted {k : Int}
    (h : (s.effectCompleted k).2.AwaitsEffect command) : s.AwaitsEffect command ∧ k ≠ command := by
  cases hc : s.cursor with
  | none =>
    have hnone : (s.effectCompleted k).2.cursor = none := by simp [effectCompleted, warn, hc]
    exact (not_awaitsEffect_of_cursor_eq_none hnone h).elim
  | some c => exact awaitsEffect_of_resumeIf hc (cursor_effectCompleted hc k) h

theorem AwaitsEffect.of_unresolved {k : Int} {reason : String}
    (h : (s.unresolved k reason).AwaitsEffect command) : s.AwaitsEffect command ∧ k ≠ command := by
  cases hc : s.cursor with
  | none =>
    have hnone : (s.unresolved k reason).cursor = none := by simp [unresolved, warn, hc]
    exact (not_awaitsEffect_of_cursor_eq_none hnone h).elim
  | some c => exact awaitsEffect_of_resumeIf hc (cursor_unresolved hc k reason) h

/-! Signals number no commands. -/

@[simp] theorem advance_nextId (s : Story) : s.advance.2.nextId = s.nextId := by
  unfold advance
  split
  · split <;> rfl
  · rfl

@[simp] theorem effectCompleted_nextId (s : Story) (k : Int) :
    (s.effectCompleted k).2.nextId = s.nextId := by
  unfold effectCompleted
  split
  · split <;> rfl
  · rfl

@[simp] theorem unresolved_nextId (s : Story) (k : Int) (reason : String) :
    (s.unresolved k reason).nextId = s.nextId := by
  unfold unresolved
  dsimp only
  split
  · split <;> rfl
  · rfl

/-! ### Steps -/

/-- From a ready cursor the story goes on to wait for an effect only if the directive takes time,
    and then for the effect of its command. -/
theorem next_awaits {c : Cursor} {d : Directive} (hready : c.wait = .ready)
    (h : awaits (s.next c d) command) : d.isDurational ∧ command = s.nextId := by
  rw [awaits_iff] at h
  unfold next at h
  split at h
  · simp [Cursor.enter] at h
  · cases d with
    | dialogue line => simp [moveOn, Cursor.await] at h
    | log message =>
      simp only [moveOn] at h
      split at h <;> simp [Cursor.await, Cursor.skip, hready] at h
    | stage direction =>
      simp only [moveOn] at h
      split at h
      · next hdurational =>
        simp only [Cursor.await, Option.some.injEq, true_and] at h
        exact ⟨hdurational, h.symm⟩
      · simp [Cursor.skip, hready] at h

end Story

/-- The directive that a sound cursor stands at is well formed. -/
theorem Cursor.Sound.here_wellFormed {settings : RuntimeSettings} {c : Cursor} {d : Directive}
    (h : c.Sound settings) (hd : c.here = some d) : d.WellFormed := by
  obtain ⟨scene, hscene, hat⟩ := Option.bind_eq_some_iff.1 hd
  obtain ⟨n, hn, rfl⟩ := Scene.directive?_mem hat
  exact (h.script_compiled.wellFormed.scenes scene (Script.scene?_mem hscene)).directives n hn

end VisualNovel

import Mathlib.Data.List.Nodup
import VisualNovel.Proofs.Story.Soundness

/-!
The commands that a story has handed on, over its whole life. Their ids only grow, and a cursor
waits at most for a command that came from itself.
-/

namespace VisualNovel

namespace Story

/-- The record of a story: every command has an id above those before it, and the command that the
    cursor waits for came from that cursor. -/
structure Ordered (s : Story) : Prop where
  ids_increase : (s.commands.map (·.id)).Pairwise (· < ·)
  id_lt : ∀ issue ∈ s.issued.toList, issue.command.id < s.nextId
  issuer_lt : ∀ issue ∈ s.issued.toList, issue.cursor < s.nextCursor
  number_lt : ∀ c, s.cursor = some c → c.number < s.nextCursor
  pending_issued : ∀ c command, s.cursor = some c → c.pending = some command →
    ∃ issue ∈ s.issued.toList, issue.cursor = c.number ∧ issue.command.id = command

variable {s : Story} {c : Cursor} {d : Directive}

theorem next_number : (s.next c d).number = c.number := by
  unfold next
  split
  · rfl
  · cases d with
    | dialogue line => rfl
    | log message =>
      dsimp only [moveOn]
      split <;> rfl
    | stage direction =>
      dsimp only [moveOn]
      split <;> rfl

/-- A cursor that waited for nothing waits at most for the command just handed on. -/
theorem next_pending (hc : c.pending = none) {command : Int}
    (h : (s.next c d).pending = some command) : command = s.nextId := by
  unfold next at h
  split at h
  · simp [Cursor.enter] at h
  · cases d with
    | dialogue line => simpa [moveOn, Cursor.await, eq_comm] using h
    | log message =>
      dsimp only [moveOn] at h
      split at h
      · simpa [Cursor.await, eq_comm] using h
      · simp [Cursor.skip, hc] at h
    | stage direction =>
      dsimp only [moveOn] at h
      split at h
      · simpa [Cursor.await, eq_comm] using h
      · simp [Cursor.skip, hc] at h

theorem issued_handOn (command : Command) :
    (s.handOn c d command).issued.toList = s.issued.toList ++ [⟨c.number, command⟩] :=
  s.issued.toList_push _

namespace Ordered

/-- Nothing but the cursor changes, and that waits for nothing new. -/
theorem of_cursor (h : s.Ordered) (hc : s.cursor = some c) {c' : Cursor}
    (hnumber : c'.number = c.number) (hpending : c'.pending = none ∨ c'.pending = c.pending) :
    Ordered { s with cursor := some c' } := by
  refine ⟨h.ids_increase, h.id_lt, h.issuer_lt, fun c₁ hc₁ => ?_, fun c₁ command hc₁ hcommand => ?_⟩
  · cases hc₁
    exact hnumber ▸ h.number_lt c hc
  · cases hc₁
    rcases hpending with hnone | hsame
    · rw [hnone] at hcommand
      cases hcommand
    · rw [hnumber]
      exact h.pending_issued c command hc (hsame ▸ hcommand)

theorem handOn {settings : RuntimeSettings} (h : s.Ordered) (hs : s.Sound settings)
    (hc : s.cursor = some c) (hready : c.wait = .ready) {command : Command}
    (hcommand : d.dispatch (s.resolve d).1 s.nextId = .ok command) :
    (s.handOn c d command).Ordered := by
  have hid : command.id = s.nextId := id_of_dispatch hcommand
  have hnone : c.pending = none :=
    (hs.cursor_sound c hc).pending_eq_none (by simp [hready]) (by simp [hready])
  refine ⟨?_, ?_, ?_, fun c' hc' => ?_, fun c' k hc' hk => ?_⟩
  · rw [commands, issued_handOn, List.map_append, List.map_append, List.pairwise_append]
    refine ⟨h.ids_increase, List.pairwise_singleton _ _, fun id hmem id' hmem' => ?_⟩
    obtain ⟨_, hissued, rfl⟩ := List.mem_map.1 hmem
    obtain ⟨issue, hissue, rfl⟩ := List.mem_map.1 hissued
    have hlt := h.id_lt issue hissue
    simp only [List.map_cons, List.map_nil, List.mem_singleton] at hmem'
    omega
  · intro issue hissue
    rw [issued_handOn, List.mem_append, List.mem_singleton] at hissue
    show _ < s.nextId + 1
    rcases hissue with hold | rfl
    · have := h.id_lt issue hold
      omega
    · show command.id < _
      omega
  · intro issue hissue
    rw [issued_handOn, List.mem_append, List.mem_singleton] at hissue
    rcases hissue with hold | rfl
    · exact h.issuer_lt issue hold
    · exact h.number_lt c hc
  · cases hc'
    rw [next_number]
    exact h.number_lt c hc
  · cases hc'
    refine ⟨⟨c.number, command⟩, ?_, next_number.symm, ?_⟩
    · rw [issued_handOn]
      exact List.mem_append_right _ List.mem_cons_self
    · exact hid.trans (next_pending hnone hk).symm

theorem begin (h : s.Ordered) (id : ScriptId) (script : Script) (scene : String) :
    (s.begin id script scene).Ordered := by
  refine ⟨h.ids_increase, h.id_lt, fun issue hissue => ?_, fun c hc => ?_, fun c k hc hk => ?_⟩
  · exact Nat.lt_succ_of_lt (h.issuer_lt issue hissue)
  · cases hc
    exact Nat.lt_succ_self _
  · cases hc
    cases hk

/-- A cursor waits for no command that came from another cursor. -/
theorem pending_ne (h : s.Ordered) (hc : s.cursor = some c) {issue : Issue}
    (hissue : issue ∈ s.issued.toList) (hother : issue.cursor ≠ c.number) :
    c.pending ≠ some issue.command.id := by
  intro hpending
  obtain ⟨issue', hissue', hown, hid⟩ := h.pending_issued c _ hc hpending
  have hnodup : (s.issued.toList.map fun issue => issue.command.id).Nodup := by
    have hincrease := h.ids_increase
    rw [commands, List.map_map] at hincrease
    exact hincrease.imp fun hlt => Int.ne_of_lt hlt
  have hsame : issue' = issue := List.inj_on_of_nodup_map hnodup hissue' hissue hid
  exact hother (hsame ▸ hown)

end Ordered

/-- A story that was started anew after a past moment: whatever it waits for came later. -/
structure Anew (past s : Story) : Prop where
  issued : past.issued.toList <+: s.issued.toList
  nextCursor : past.nextCursor ≤ s.nextCursor
  number : ∀ c, s.cursor = some c → past.nextCursor ≤ c.number

end Story

end VisualNovel

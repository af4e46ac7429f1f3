import VisualNovel.Proofs.Stage.Handling
import VisualNovel.Proofs.Story.Awaiting

/-!
What a story expects of the stage: whether it waits for an effect, and whether the player is reading
a line. Both follow from the directive whose command was handed on last.
-/

namespace VisualNovel

/-- The command whose effect the cursor waits for. -/
def Cursor.owed (c : Cursor) : Option Int := if c.wait = .effect then c.pending else none

/-- The cursor waits at a line of dialogue for the player to go on. -/
def Cursor.SaysLine (c : Cursor) : Prop := c.wait = .advance ∧ ∃ line, c.here = some (.dialogue line)

/-- The story once the effect that it waits for is over. -/
def Story.rested (s : Story) : Story :=
  match s.cursor with
  | some c => if c.wait = .effect then { s with cursor := some c.resume } else s
  | none => s

namespace Cursor

variable {c : Cursor}

theorem owed_of_wait_ne (h : c.wait ≠ .effect) : c.owed = none := if_neg h

theorem not_saysLine (h : c.wait ≠ .advance) : ¬ c.SaysLine := fun hsays => h hsays.1

theorem owed_eq_some_iff {command : Int} : c.owed = some command ↔ Story.awaits c command := by
  unfold owed
  rw [Story.awaits_iff]
  split
  · next hwait => simp [hwait]
  · next hwait => simp [hwait]

end Cursor

/-! ### Commands and their directives -/

theorem Action.isDurational_iff_word {a : Action} :
    a.isDurational ↔ Vocabulary.word a = "fade" ∨ Vocabulary.word a = "move" := by
  cases a <;> decide

theorem Directive.durational_of_dispatch {d : Directive} {resolved : Resolved} {id : Int}
    {c : Command} (h : d.dispatch resolved id = .ok c) :
    (c.durational ↔ c.verb = "fade" ∨ c.verb = "move") ∧
      (c.subsystem = .dialogue ↔ ∃ line, d = .dialogue line) := by
  cases d with
  | dialogue line =>
    obtain ⟨speaker, _ | text⟩ := resolved
    · cases h
    · cases h
      simp
  | log message =>
    obtain ⟨speaker, _ | text⟩ := resolved
    · cases h
    · cases h
      simp
  | stage direction =>
    cases h
    refine ⟨Action.isDurational_iff_word, ?_⟩
    cases direction.target.kind <;> simp [TargetKind.subsystem]

theorem Directive.not_isDurational_of_jumpTarget? {d : Directive} {target : String}
    (h : d.jumpTarget? = some target) : ¬ d.isDurational := by
  cases d with
  | dialogue line => cases h
  | log message => cases h
  | stage direction =>
    by_cases hjump : direction.isJump
    · have haction : direction.action = .jump := by
        simp only [StageDirection.isJump, Bool.and_eq_true, beq_iff_eq] at hjump
        exact hjump.2
      simp [isDurational, haction, Action.isDurational]
    · simp [jumpTarget?, hjump] at h

namespace Story

variable {s : Story} {c : Cursor} {d : Directive}

/-- From a ready cursor the story goes on to wait for the effect of a command that takes time, and
    for no other effect. -/
theorem next_owed (hready : c.wait = .ready) :
    (s.next c d).owed = if d.isDurational then some s.nextId else none := by
  unfold next
  split
  · next target htarget =>
    rw [if_neg (Directive.not_isDurational_of_jumpTarget? htarget)]
    rfl
  · cases d with
    | dialogue line => rfl
    | log message =>
      dsimp only [moveOn]
      split
      · rfl
      · exact Cursor.owed_of_wait_ne (by simp [Cursor.skip, hready])
    | stage direction =>
      have hdirective : (Directive.stage direction).isDurational = direction.action.isDurational :=
        rfl
      rw [hdirective]
      dsimp only [moveOn]
      split
      · rfl
      · exact Cursor.owed_of_wait_ne (by simp [Cursor.skip, hready])

/-- From a ready cursor the story goes on to have the player read exactly where it says a line. -/
theorem next_saysLine (hready : c.wait = .ready) (hd : c.here = some d) :
    (s.next c d).SaysLine ↔ ∃ line, d = .dialogue line := by
  unfold next
  split
  · next target htarget =>
    refine iff_of_false (Cursor.not_saysLine (by simp [Cursor.enter])) ?_
    rintro ⟨line, rfl⟩
    cases htarget
  · cases d with
    | dialogue line => exact iff_of_true ⟨rfl, line, hd⟩ ⟨line, rfl⟩
    | log message =>
      refine iff_of_false ?_ (by simp)
      dsimp only [moveOn]
      split
      · rintro ⟨-, line, hline⟩
        have hlog : (c.await .advance s.nextId).here = some (.log message) := hd
        rw [hlog] at hline
        cases hline
      · exact Cursor.not_saysLine (by simp [Cursor.skip, hready])
    | stage direction =>
      refine iff_of_false ?_ (by simp)
      dsimp only [moveOn]
      split
      · exact Cursor.not_saysLine (by simp [Cursor.await])
      · exact Cursor.not_saysLine (by simp [Cursor.skip, hready])

theorem rested_of_wait_ne (hc : s.cursor = some c) (hwait : c.wait ≠ .effect) : s.rested = s := by
  unfold rested
  rw [hc]
  exact if_neg hwait

/-! ### Diagnostics -/

/-- All that the story has noted so far is what it missed, and nothing that came out of turn. -/
def InTurn (s : Story) : Prop := ∀ w ∈ s.diagnostics, w.isResolution

theorem InTurn.warn (h : s.InTurn) {w : Warning} (hw : w.isResolution) : (s.warn w).InTurn := by
  intro w' hw'
  rw [diagnostics_warn, List.mem_append, List.mem_singleton] at hw'
  rcases hw' with hold | rfl
  · exact h w' hold
  · exact hw

theorem InTurn.unresolved (h : s.InTurn) (command : Int) (reason : String) :
    (s.unresolved command reason).InTurn := by
  have hwarned := h.warn (w := .unresolved command reason) rfl
  unfold Story.unresolved
  dsimp only
  split
  · split
    · exact hwarned
    · exact hwarned
  · exact hwarned

theorem evaluate_isResolution (vars : Variables) (e : Expression) :
    ∀ w ∈ (e.evaluate vars).2, w.isResolution := by
  intro w hw
  obtain ⟨part, hpart, hmem⟩ := List.mem_flatMap.1 hw
  obtain ⟨segment, -, rfl⟩ := List.mem_map.1 hpart
  unfold Segment.evaluate at hmem
  split at hmem
  · cases hmem
  · split at hmem
    · cases hmem
    · rw [List.mem_singleton.1 hmem]
      rfl

theorem resolve_isResolution (s : Story) (d : Directive) :
    ∀ w ∈ (s.resolve d).2, w.isResolution := by
  cases d with
  | dialogue line =>
    intro w hw
    rcases List.mem_append.1 hw with hname | htext
    · split at hname
      · exact evaluate_isResolution _ _ w hname
      · cases hname
      · cases hname
    · exact evaluate_isResolution _ _ w htext
  | log message => exact evaluate_isResolution _ _
  | stage direction => exact fun w hw => by cases hw

theorem InTurn.handOn (h : s.InTurn) (command : Command) : (s.handOn c d command).InTurn := by
  intro w hw
  have hdiagnostics : (s.handOn c d command).diagnostics = s.diagnostics ++ (s.resolve d).2 :=
    s.warnings.toList_append _
  rw [hdiagnostics, List.mem_append] at hw
  rcases hw with hold | hnew
  · exact h w hold
  · exact s.resolve_isResolution d w hnew

end Story

end VisualNovel

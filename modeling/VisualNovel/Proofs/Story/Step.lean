import VisualNovel.Proofs.Script.Validation
import VisualNovel.Story.Story

/-!
One step of a story, as an equation for each of its outcomes: at the curtain it halts, and at a
directive it hands on the directive's command and moves the cursor. `Story.noted` is what the step
records of the directive, `Story.next` is where the cursor goes, and `Story.handOn` is both.
-/

namespace VisualNovel

/-- The directive that the cursor stands at, none at the curtain. -/
def Cursor.here (c : Cursor) : Option Directive := c.scene?.bind fun s => s.directive? c.index

/-- The scene that a directive goes to, if it is a jump. -/
def Directive.jumpTarget? : Directive → Option String
  | .stage d => if d.isJump then d.params.name.join else none
  | _ => none

/-- Completing a direction's parameters does not change where it jumps to. -/
theorem StageDirection.completeParams_name (d : StageDirection) :
    d.completeParams.name = d.params.name := by
  unfold completeParams
  cases d.target.kind with
  | actor => dsimp only; split <;> rfl
  | animation => dsimp only; split <;> rfl
  | gui => rfl
  | background => rfl
  | scene => rfl

namespace Story

/-- The story once a directive is evaluated and numbered, before its cursor moves. -/
def noted (s : Story) (d : Directive) : Story :=
  { s with
    nextId := s.nextId + 1
    warnings := s.warnings.append (s.resolve d).2
    history := match entry? d (s.resolve d).1 with
      | some e => s.history.record e
      | none => s.history }

/-- Where the cursor goes from a directive. -/
def next (s : Story) (c : Cursor) (d : Directive) : Cursor :=
  match d.jumpTarget? with
  | some target => c.enter target
  | none => s.moveOn c d s.nextId

/-- The story once it has handed on the command of a directive. -/
def handOn (s : Story) (c : Cursor) (d : Directive) (command : Command) : Story :=
  { s.noted d with
    issued := s.issued.push ⟨c.number, command⟩
    cursor := some (s.next c d) }

/-- Evaluation gives every directive what its command needs. -/
theorem dispatch_resolve (s : Story) (d : Directive) :
    ∃ command, d.dispatch (s.resolve d).1 s.nextId = .ok command ∧ command.id = s.nextId := by
  cases d with
  | dialogue line => exact ⟨_, rfl, rfl⟩
  | log message => exact ⟨_, rfl, rfl⟩
  | stage direction => exact ⟨_, rfl, rfl⟩

theorem id_of_dispatch {s : Story} {d : Directive} {command : Command}
    (h : d.dispatch (s.resolve d).1 s.nextId = .ok command) : command.id = s.nextId := by
  obtain ⟨command', hcommand', hid⟩ := s.dispatch_resolve d
  rw [h] at hcommand'
  cases hcommand'
  exact hid

/-- At the curtain the story halts and hands nothing on. -/
theorem step_of_here_eq_none {s : Story} {c : Cursor} (hscene : c.scene? ≠ none)
    (hhere : c.here = none) : s.step c = (.ok none, { s with cursor := some c.halt }) := by
  obtain ⟨scene, hs⟩ := Option.ne_none_iff_exists'.1 hscene
  have hd : scene.directive? c.index = none := by simpa [Cursor.here, hs] using hhere
  simp [step, hs, hd]

/-- At a directive the story hands on its command. A jump has to name a scene, which validation
    promises. -/
theorem step_of_here_eq_some {s : Story} {c : Cursor} {d : Directive} (hhere : c.here = some d)
    (hjump : ∀ direction, d = .stage direction → c.script.JumpsWithin direction) :
    ∃ command, d.dispatch (s.resolve d).1 s.nextId = .ok command ∧
      s.step c = (.ok (some command), s.handOn c d command) := by
  obtain ⟨scene, hs, hd⟩ := Option.bind_eq_some_iff.1 hhere
  obtain ⟨command, hcommand, hid⟩ := s.dispatch_resolve d
  refine ⟨command, hcommand, ?_⟩
  unfold step
  simp only [hs, hd, Int.add_sub_cancel, hcommand]
  cases d with
  | dialogue line => simp [handOn, noted, next, Directive.jumpTarget?, moveOn, hid, entry?]
  | log message => simp [handOn, noted, next, Directive.jumpTarget?, moveOn, hid, entry?]
  | stage direction =>
    by_cases hj : direction.isJump
    · obtain ⟨target, hname, -⟩ := hjump direction rfl hj
      have hparams : command.params.name = some (some target) := by
        simp only [Directive.dispatch] at hcommand
        cases hcommand
        rw [← hname]
        exact direction.completeParams_name
      simp only [hj, if_true, hparams, Option.join_some, Prod.mk.injEq, true_and]
      simp [handOn, noted, next, Directive.jumpTarget?, entry?, hj, hname, Cursor.leave,
        Cursor.enter]
    · simp [hj, handOn, noted, next, Directive.jumpTarget?, hid, entry?, moveOn]

end Story

end VisualNovel

import VisualNovel.Story.Story

/-!
A story never looks at what it has reported. So it does the same, and reports the same, whatever
was reported before.
-/

namespace VisualNovel.Story

/-- The story without its diagnostics. -/
def forget (s : Story) : Story := { s with warnings := {} }

/-- The story with older diagnostics before its own. -/
def remember (older : Trail Warning) (s : Story) : Story :=
  { s with warnings := older.append s.diagnostics }

variable {s : Story} {older : Trail Warning}

@[simp] theorem diagnostics_remember :
    (s.remember older).diagnostics = older.toList ++ s.diagnostics :=
  older.toList_append s.diagnostics

theorem remember_forget (s : Story) : s.forget.remember s.warnings = s := by
  simp [remember, forget, diagnostics, Trail.append]

theorem warn_remember (w : Warning) : (s.remember older).warn w = (s.warn w).remember older := by
  simp [warn, remember, diagnostics, Trail.append, Trail.push, Trail.toList]

@[simp] theorem cursor_remember : (s.remember older).cursor = s.cursor := rfl

@[simp] theorem nextId_remember : (s.remember older).nextId = s.nextId := rfl

theorem advance_remember :
    (s.remember older).advance = (s.advance.1, s.advance.2.remember older) := by
  unfold advance
  rw [cursor_remember]
  cases s.cursor with
  | none => exact congrArg (Prod.mk false) (warn_remember _)
  | some c =>
    dsimp only
    split
    · rfl
    · exact congrArg (Prod.mk false) (warn_remember _)

theorem effectCompleted_remember (command : Int) :
    (s.remember older).effectCompleted command =
      ((s.effectCompleted command).1, (s.effectCompleted command).2.remember older) := by
  unfold effectCompleted
  rw [cursor_remember]
  cases s.cursor with
  | none => exact congrArg (Prod.mk false) (warn_remember _)
  | some c =>
    dsimp only
    split
    · rfl
    · exact congrArg (Prod.mk false) (warn_remember _)

theorem unresolved_remember (command : Int) (reason : String) :
    (s.remember older).unresolved command reason =
      (s.unresolved command reason).remember older := by
  unfold unresolved
  dsimp only
  rw [warn_remember, cursor_remember]
  generalize s.warn (.unresolved command reason) = warned
  cases warned.cursor with
  | none => rfl
  | some c =>
    dsimp only
    split <;> rfl

theorem resolve_remember (d : Directive) : (s.remember older).resolve d = s.resolve d := by
  cases d <;> rfl

theorem step_remember (c : Cursor) :
    (s.remember older).step c = ((s.step c).1, (s.step c).2.remember older) := by
  have hwarnings (ws : List Warning) : (s.remember older).warnings.append ws =
      older.append (s.warnings.append ws).toList := by
    simp [remember, diagnostics, Trail.append, Trail.toList]
  unfold step
  cases c.scene? with
  | none => rfl
  | some scene =>
    dsimp only
    cases scene.directive? c.index with
    | none => rfl
    | some d =>
      dsimp only
      rw [resolve_remember, hwarnings, nextId_remember]
      cases d.dispatch (s.resolve d).1 (s.nextId + 1 - 1) with
      | error e => rfl
      | ok command =>
        dsimp only
        cases d with
        | dialogue line => rfl
        | log message => rfl
        | stage direction =>
          dsimp only
          split
          · cases command.params.name.join <;> rfl
          · rfl

end VisualNovel.Story

import VisualNovel.Proofs.Story.Step

/-!
The invariant of a story. Between two operations its cursor stands in a scene of its script, at
most at the curtain, and waits only for what the directive it stands at can bring about. Signals
and steps keep this, and a step never fails.
-/

namespace VisualNovel

/-- The cursor of a story between two operations. -/
structure Cursor.Sound (settings : RuntimeSettings) (c : Cursor) : Prop where
  script_compiled : c.script.Compiled
  has_scene : c.script.hasScene c.scene
  index_le_length : ∀ s, c.scene? = some s → c.index ≤ s.length
  not_changingScene : c.wait ≠ .changingScene
  pending_iff : c.pending ≠ none ↔ c.wait = .advance ∨ c.wait = .effect
  advance_at : c.wait = .advance → (∃ line, c.here = some (.dialogue line)) ∨
    settings.logWaitsForAdvance ∧ ∃ message, c.here = some (.log message)
  effect_at : c.wait = .effect → ∃ d : StageDirection, c.here = some (.stage d) ∧
    (d.action = .move ∨ d.action = .fade)
  halted_at : c.wait = .halted → ∀ s, c.scene? = some s → c.index = s.length

/-- The cursor of the story, if it has one, is sound under these settings, which it runs with. -/
structure Story.Sound (settings : RuntimeSettings) (s : Story) : Prop where
  settings_eq : s.settings = settings
  cursor_sound : ∀ c, s.cursor = some c → c.Sound settings

theorem Action.isDurational_iff {a : Action} : a.isDurational ↔ a = .move ∨ a = .fade := by
  cases a <;> simp [isDurational]

namespace Cursor.Sound

variable {settings : RuntimeSettings} {c : Cursor}

theorem scene_eq_some (h : c.Sound settings) : ∃ s, c.scene? = some s :=
  Option.isSome_iff_exists.1 h.has_scene

/-- A cursor that is ready or halted waits for no command. -/
theorem pending_eq_none (h : c.Sound settings) (ha : c.wait ≠ .advance) (he : c.wait ≠ .effect) :
    c.pending = none := by
  cases hpending : c.pending with
  | none => rfl
  | some command =>
    rcases h.pending_iff.1 (by simp [hpending]) with hwait | hwait
    · exact absurd hwait ha
    · exact absurd hwait he

/-- Where the cursor can go on from a directive, the next index is within the scene, too. -/
theorem skip (h : c.Sound settings) (hready : c.wait = .ready) {d : Directive}
    (hd : c.here = some d) : c.skip.Sound settings where
  script_compiled := h.script_compiled
  has_scene := h.has_scene
  index_le_length s hs := by
    have hat : s.directive? c.index = some d := by
      have hscene : c.scene? = some s := hs
      simpa [here, hscene] using hd
    exact Scene.succ_le_length hat
  not_changingScene := h.not_changingScene
  pending_iff := h.pending_iff
  advance_at hwait := by simp [Cursor.skip, hready] at hwait
  effect_at hwait := by simp [Cursor.skip, hready] at hwait
  halted_at hwait := by simp [Cursor.skip, hready] at hwait

/-- A waiting cursor stands at a directive, so it can resume. -/
theorem resume (h : c.Sound settings) (hwait : c.wait = .advance ∨ c.wait = .effect) :
    c.resume.Sound settings where
  script_compiled := h.script_compiled
  has_scene := h.has_scene
  index_le_length s hs := by
    have hscene : c.scene? = some s := hs
    have hhere : ∃ d, c.here = some d := by
      rcases hwait with hwait | hwait
      · rcases h.advance_at hwait with ⟨line, hline⟩ | ⟨-, message, hmessage⟩
        · exact ⟨_, hline⟩
        · exact ⟨_, hmessage⟩
      · obtain ⟨d, hd, -⟩ := h.effect_at hwait
        exact ⟨_, hd⟩
    obtain ⟨d, hd⟩ := hhere
    exact Scene.succ_le_length (d := d) (by simpa [here, hscene] using hd)
  not_changingScene := by simp [Cursor.resume]
  pending_iff := by simp [Cursor.resume]
  advance_at hwait := by simp [Cursor.resume] at hwait
  effect_at hwait := by simp [Cursor.resume] at hwait
  halted_at hwait := by simp [Cursor.resume] at hwait

/-- A ready cursor at a directive can wait for the command of that directive. -/
theorem await (h : c.Sound settings) {d : Directive} (hd : c.here = some d) {wait : Wait}
    (hwait : wait = .advance ∧ ((∃ line, d = .dialogue line) ∨
        settings.logWaitsForAdvance ∧ ∃ message, d = .log message) ∨
      wait = .effect ∧ ∃ direction : StageDirection, d = .stage direction ∧
        (direction.action = .move ∨ direction.action = .fade)) (command : Int) :
    (c.await wait command).Sound settings where
  script_compiled := h.script_compiled
  has_scene := h.has_scene
  index_le_length := h.index_le_length
  not_changingScene := by rcases hwait with ⟨rfl, -⟩ | ⟨rfl, -⟩ <;> simp [Cursor.await]
  pending_iff := by rcases hwait with ⟨rfl, -⟩ | ⟨rfl, -⟩ <;> simp [Cursor.await]
  advance_at hadvance := by
    have hwait' : wait = .advance := hadvance
    subst hwait'
    have hhere : (c.await .advance command).here = some d := hd
    simpa [hhere] using hwait
  effect_at heffect := by
    have hwait' : wait = .effect := heffect
    subst hwait'
    have hhere : (c.await .effect command).here = some d := hd
    simpa [hhere] using hwait
  halted_at hhalted := by
    have hwait' : wait = .halted := hhalted
    subst hwait'
    simp at hwait

/-- Every scene of the script can be entered. -/
theorem enter (h : c.Sound settings) {target : String} (ht : c.script.hasScene target) :
    (c.enter target).Sound settings where
  script_compiled := h.script_compiled
  has_scene := ht
  index_le_length _ _ := Nat.zero_le _
  not_changingScene := by simp [Cursor.enter]
  pending_iff := by simp [Cursor.enter]
  advance_at hwait := by simp [Cursor.enter] at hwait
  effect_at hwait := by simp [Cursor.enter] at hwait
  halted_at hwait := by simp [Cursor.enter] at hwait

/-- A ready cursor at the curtain can halt. -/
theorem halt (h : c.Sound settings) (hready : c.wait = .ready) (hhere : c.here = none) :
    c.halt.Sound settings where
  script_compiled := h.script_compiled
  has_scene := h.has_scene
  index_le_length := h.index_le_length
  not_changingScene := by simp [Cursor.halt]
  pending_iff := by simp [Cursor.halt, h.pending_eq_none (by simp [hready]) (by simp [hready])]
  advance_at hwait := by simp [Cursor.halt] at hwait
  effect_at hwait := by simp [Cursor.halt] at hwait
  halted_at _ s hs := by
    have hscene : c.scene? = some s := hs
    have hnone : s.directive? c.index = none := by simpa [here, hscene] using hhere
    exact Nat.le_antisymm (h.index_le_length s hs) (Scene.length_le_of_directive?_eq_none hnone)

/-- Validation has looked at the directive that the cursor stands at. -/
theorem jumpsWithin (h : c.Sound settings) {direction : StageDirection}
    (hd : c.here = some (.stage direction)) : c.script.JumpsWithin direction := by
  obtain ⟨scene, hscene, hat⟩ := Option.bind_eq_some_iff.1 hd
  obtain ⟨n, hn, hdirection⟩ := Scene.directive?_mem hat
  obtain ⟨-, hjumps⟩ := Script.validate_eq_ok_iff.1 h.script_compiled.validate
  exact hjumps scene (Script.scene?_mem hscene) n hn direction hdirection

end Cursor.Sound

namespace Story.Sound

variable {settings : RuntimeSettings} {s : Story}

theorem abandon (h : s.Sound settings) : s.abandon.Sound settings :=
  ⟨h.settings_eq, fun _ hc => by cases hc⟩

theorem warn (h : s.Sound settings) (w : Warning) : (s.warn w).Sound settings :=
  ⟨h.settings_eq, h.cursor_sound⟩

/-- A compiled script can be begun at its first scene. -/
theorem begin (h : s.Sound settings) (id : ScriptId) {script : Script}
    (hcompiled : script.Compiled) {scene : Scene} (hscene : script.scenes.head? = some scene) :
    (s.begin id script scene.name).Sound settings := by
  refine ⟨h.settings_eq, fun c hc => ?_⟩
  cases hc
  refine ⟨hcompiled, Script.hasScene_of_mem (List.mem_of_head? hscene), ?_, ?_, ?_, ?_, ?_, ?_⟩ <;>
    simp

theorem resume (h : s.Sound settings) {c : Cursor} (hc : s.cursor = some c)
    (hwait : c.wait = .advance ∨ c.wait = .effect) :
    Story.Sound settings { s with cursor := some c.resume } := by
  refine ⟨h.settings_eq, fun c' hc' => ?_⟩
  cases hc'
  exact (h.cursor_sound c hc).resume hwait

theorem advance (h : s.Sound settings) : s.advance.2.Sound settings := by
  unfold Story.advance
  split
  · next c hc =>
    split
    · next hwait => exact h.resume hc (.inl hwait)
    · exact h.warn _
  · exact h.warn _

/-- A story that awaits a command waits for an effect. -/
theorem wait_of_awaits {c : Cursor} {command : Int} (h : awaits c command) : c.wait = .effect := by
  simp only [awaits, Bool.and_eq_true, beq_iff_eq] at h
  exact h.1

theorem effectCompleted (h : s.Sound settings) (command : Int) :
    (s.effectCompleted command).2.Sound settings := by
  unfold Story.effectCompleted
  split
  · next c hc =>
    split
    · next hwait => exact h.resume hc (.inr (wait_of_awaits hwait))
    · exact h.warn _
  · exact h.warn _

theorem unresolved (h : s.Sound settings) (command : Int) (reason : String) :
    (s.unresolved command reason).Sound settings := by
  have hwarned := h.warn (.unresolved command reason)
  unfold Story.unresolved
  dsimp only
  split
  · next c hc =>
    split
    · next hwait => exact hwarned.resume hc (.inr (wait_of_awaits hwait))
    · exact hwarned
  · exact hwarned

theorem next {c : Cursor} (h : s.Sound settings) (hc : s.cursor = some c) (hready : c.wait = .ready)
    {d : Directive} (hd : c.here = some d) : (s.next c d).Sound settings := by
  have hcursor := h.cursor_sound c hc
  unfold Story.next
  cases d with
  | dialogue line =>
    exact hcursor.await hd (.inl ⟨rfl, .inl ⟨line, rfl⟩⟩) _
  | log message =>
    simp only [Directive.jumpTarget?, moveOn, h.settings_eq]
    split
    · next hlog => exact hcursor.await hd (.inl ⟨rfl, .inr ⟨hlog, message, rfl⟩⟩) _
    · exact hcursor.skip hready hd
  | stage direction =>
    simp only [Directive.jumpTarget?, moveOn]
    by_cases hjump : direction.isJump
    · obtain ⟨target, hname, htarget⟩ := hcursor.jumpsWithin hd hjump
      simp only [hjump, if_true, hname, Option.join_some]
      exact hcursor.enter htarget
    · simp only [hjump, Bool.false_eq_true, if_false]
      split
      · next hdurational =>
        exact hcursor.await hd (.inr ⟨rfl, direction, rfl, Action.isDurational_iff.1 hdurational⟩) _
      · exact hcursor.skip hready hd

/-- A step of a sound story does not fail, and the story after it is sound. -/
theorem step {c : Cursor} (h : s.Sound settings) (hc : s.cursor = some c)
    (hready : c.wait = .ready) :
    (s.step c).2.Sound settings ∧ ∀ e, (s.step c).1 ≠ .error e := by
  have hcursor := h.cursor_sound c hc
  cases hhere : c.here with
  | none =>
    obtain ⟨scene, hscene⟩ := hcursor.scene_eq_some
    rw [step_of_here_eq_none (by simp [hscene]) hhere]
    refine ⟨⟨h.settings_eq, fun c' hc' => ?_⟩, by simp⟩
    cases hc'
    exact hcursor.halt hready hhere
  | some d =>
    obtain ⟨command, -, hstep⟩ := step_of_here_eq_some (s := s) hhere fun direction hdirection =>
      hcursor.jumpsWithin (hdirection ▸ hhere)
    rw [hstep]
    refine ⟨⟨h.settings_eq, fun c' hc' => ?_⟩, by simp⟩
    cases hc'
    exact h.next hc hready hhere

end Story.Sound

end VisualNovel

import VisualNovel.Proofs.Performance.Reentrancy

/-!
What lasts over a whole performance. Whatever is done to a performance, and whatever its handlers
do about commands, only few things happen to its story: it notes something, its cursor goes on or
halts, it hands on a command, it is abandoned or begun, and its variables change. A property of
stories that outlives each of these outlives every run.
-/

namespace VisualNovel

open Act

variable {α : Type}

/-- A property that outlives everything that allowed operations, among them those of handlers, can
    do to a sound story. -/
structure Story.Lasting (allowed : Cue α → Prop) (settings : RuntimeSettings)
    (J : Story → Prop) : Prop where
  warn : ∀ s w, J s → J (s.warn w)
  resume : ∀ s c, s.Sound settings → s.cursor = some c → c.wait = .advance ∨ c.wait = .effect →
    J s → J { s with cursor := some c.resume }
  halt : ∀ s c, s.Sound settings → s.cursor = some c → c.wait = .ready → c.here = none →
    J s → J { s with cursor := some c.halt }
  handOn : ∀ s c d command, s.Sound settings → s.cursor = some c → c.wait = .ready →
    c.here = some d → d.dispatch (s.resolve d).1 s.nextId = .ok command →
    J s → J (s.handOn c d command)
  abandon : ∀ id, allowed (.start id) → ∀ s, J s → J s.abandon
  begin : ∀ id, allowed (.start id) → ∀ (s : Story) script scene, script.Compiled →
    script.scenes.head? = some scene → J s → J (s.begin id script scene.name)
  setVariable : ∀ name value, allowed (.setVariable name value) → ∀ s : Story, J s →
    J { s with bindings := s.bindings.put name value }
  eraseVariable : ∀ name, allowed (.eraseVariable name) → ∀ s : Story, J s →
    J { s with bindings := s.bindings.erase name }
  subscribe : ∀ subsystem respond, allowed (.subscribe subsystem respond) →
    Handler.Gives allowed ⟨0, respond⟩

namespace Story.Lasting

variable {allowed : Cue α → Prop} {settings : RuntimeSettings} {J : Story → Prop} {s : Story}

theorem advance (h : Lasting allowed settings J) (hs : s.Sound settings) (hJ : J s) :
    J s.advance.2 := by
  unfold Story.advance
  split
  · next c hc =>
    split
    · next hwait => exact h.resume s c hs hc (.inl hwait) hJ
    · exact h.warn s _ hJ
  · exact h.warn s _ hJ

theorem effectCompleted (h : Lasting allowed settings J) (hs : s.Sound settings) (hJ : J s)
    (command : Int) : J (s.effectCompleted command).2 := by
  unfold Story.effectCompleted
  split
  · next c hc =>
    split
    · next hawaits => exact h.resume s c hs hc (.inr (Story.Sound.wait_of_awaits hawaits)) hJ
    · exact h.warn s _ hJ
  · exact h.warn s _ hJ

theorem unresolved (h : Lasting allowed settings J) (hs : s.Sound settings) (hJ : J s)
    (command : Int) (reason : String) : J (s.unresolved command reason) := by
  have hwarned := h.warn s (.unresolved command reason) hJ
  unfold Story.unresolved
  dsimp only
  split
  · next c hc =>
    split
    · next hawaits =>
      exact h.resume _ c (hs.warn _) hc (.inr (Story.Sound.wait_of_awaits hawaits)) hwarned
    · exact hwarned
  · exact hwarned

theorem step (h : Lasting allowed settings J) (hs : s.Sound settings) (hJ : J s) {c : Cursor}
    (hc : s.cursor = some c) (hready : c.wait = .ready) : J (s.step c).2 := by
  have hcursor := hs.cursor_sound c hc
  cases hhere : c.here with
  | none =>
    obtain ⟨scene, hscene⟩ := hcursor.scene_eq_some
    rw [Story.step_of_here_eq_none (by simp [hscene]) hhere]
    exact h.halt s c hs hc hready hhere hJ
  | some d =>
    obtain ⟨command, hcommand, hstep⟩ :=
      Story.step_of_here_eq_some (s := s) hhere fun direction hdirection =>
        hcursor.jumpsWithin (hdirection ▸ hhere)
    rw [hstep]
    exact h.handOn s c d command hs hc hready hhere hcommand hJ

end Story.Lasting

/-- A sound performance whose handlers do only what is allowed, and whose story has a property. -/
structure Performance.Keeping (allowed : Cue α → Prop) (settings : RuntimeSettings)
    (J : Story → Prop) (p : Performance α) : Prop where
  sound : p.Sound settings
  handlers : ∀ (i : Nat) (h : Handler α), p.handlers[i]? = some h → h.Gives allowed
  story : J p.story

namespace Performance.Keeping

variable {allowed : Cue α → Prop} {settings : RuntimeSettings} {J : Story → Prop}
  {p : Performance α}

theorem hear (h : p.Keeping allowed settings J) (hJ : Story.Lasting allowed settings J)
    (signal : Signal) : (p.hear signal).Keeping allowed settings J := by
  have hsound := h.sound.hear signal
  cases signal with
  | completed command =>
    exact ⟨hsound, h.handlers, hJ.effectCompleted h.sound.story_sound h.story command⟩
  | unresolved command reason =>
    exact ⟨hsound, h.handlers, hJ.unresolved h.sound.story_sound h.story command reason⟩

theorem onStage_keeps (hJ : Story.Lasting allowed settings J) (work : StageAct α Unit) :
    Keeps (Keeping allowed settings J) PlayError.SparesStory (Play.onStage work) :=
  Play.onStage_keeps (fun _ => trivial) (fun _ signal h => h.hear hJ signal)
    (fun _ _ h => ⟨⟨h.sound.repertoire_compiled, h.sound.story_sound⟩, h.handlers, h.story⟩) work

/-- Soundness lasts by itself; the property of the story and what handlers give last beside it. -/
theorem lasting [Scalar α] (hJ : Story.Lasting allowed settings J) :
    Lasting allowed PlayError.SparesStory (Keeping allowed settings J) where
  spares _ he := he
  of_eq p p' h hrepertoire hstory hstage hbus hhandlers := by
    refine ⟨Sound.lasting.of_eq p p' h.sound hrepertoire hstory hstage hbus hhandlers, ?_, ?_⟩
    · rw [hhandlers]
      exact h.handlers
    · rw [hstory]
      exact h.story
  hear _ signal h := h.hear hJ signal
  advance p h :=
    ⟨Sound.lasting.advance p h.sound, h.handlers, hJ.advance h.sound.story_sound h.story⟩
  abandon p id hid h :=
    ⟨Sound.lasting.abandon p id trivial h.sound, h.handlers, hJ.abandon id hid _ h.story⟩
  begin p id shelved repertoire scene hid h hload hfirst := by
    obtain ⟨hscript, -⟩ := h.sound.repertoire_compiled.load hload
    exact ⟨Sound.lasting.begin p id shelved repertoire scene trivial h.sound hload hfirst,
      h.handlers, hJ.begin id hid _ _ scene hscript hfirst h.story⟩
  empty p id shelved repertoire h hload hfirst := by
    obtain ⟨hsound, hE⟩ := Sound.lasting.empty p id shelved repertoire h.sound hload hfirst
    exact ⟨⟨hsound, h.handlers, h.story⟩, hE⟩
  register p id text script repertoire h hcompile hregister :=
    ⟨Sound.lasting.register p id text script repertoire h.sound hcompile hregister, h.handlers,
      h.story⟩
  setVariable p name value hcue h :=
    ⟨Sound.lasting.setVariable p name value trivial h.sound, h.handlers,
      hJ.setVariable name value hcue _ h.story⟩
  eraseVariable p name hcue h :=
    ⟨Sound.lasting.eraseVariable p name trivial h.sound, h.handlers,
      hJ.eraseVariable name hcue _ h.story⟩
  subscribe p s respond hcue h := by
    refine ⟨Sound.lasting.subscribe p s respond trivial h.sound, fun i handler hi => ?_, h.story⟩
    rw [Array.getElem?_push] at hi
    split at hi
    · cases hi
      exact hJ.subscribe s respond hcue
    · exact h.handlers i handler hi
  update dt _ := onStage_keeps hJ (StageAct.update dt)
  press p stage awaiting h hstage :=
    ⟨Sound.lasting.press p stage awaiting h.sound hstage, h.handlers, h.story⟩
  step p c h hc hready := by
    obtain ⟨hsound, hE⟩ := Sound.lasting.step p c h.sound hc hready
    exact ⟨⟨hsound, h.handlers, hJ.step h.sound.story_sound h.story hc hready⟩, hE⟩
  handle c := onStage_keeps hJ (StageAct.handle c)
  gives p number handler h hhandler := h.handlers number handler hhandler
  notice p number h := by
    refine ⟨Sound.lasting.notice p number h.sound, fun i handler hi => ?_, h.story⟩
    rw [Array.getElem?_modify] at hi
    split at hi
    · obtain ⟨old, hold, rfl⟩ := Option.map_eq_some_iff.1 hi
      exact h.handlers i old hold
    · exact h.handlers i handler hi

end Performance.Keeping

/-- What lasts holds after every run of allowed operations. -/
theorem Performance.Keeping.after [Scalar α] {allowed : Cue α → Prop} {settings : RuntimeSettings}
    {J : Story → Prop} (hJ : Story.Lasting allowed settings J) {p : Performance α}
    (h : p.Keeping allowed settings J) (depth : Nat) {cues : List (Cue α)}
    (hcues : ∀ cue ∈ cues, allowed cue) : (p.after depth cues).Keeping allowed settings J :=
  (Keeping.lasting hJ).after h depth hcues

end VisualNovel

import VisualNovel.Proofs.Performance.Reentrancy
import VisualNovel.Proofs.Stage.Handling
import VisualNovel.Proofs.Story.Awaiting

/-!
A story with a stage never waits for an effect that nobody will finish. Whatever it waits for, an
effect on stage owes it the acknowledgement: the stage answers a command at once or begins an
effect for it, and an effect goes only with its acknowledgement or when its actor is taken away,
while the story waits for another one or none.
-/

namespace VisualNovel

open Act

/-- The command that a signal is about. -/
def Signal.command : Signal → Int
  | .completed command => command
  | .unresolved command _ => command

/-! ### Hearing signals -/

namespace Performance

variable {α : Type} {p : Performance α}

theorem hear_stage (signal : Signal) : (p.hear signal).stage = p.stage := by
  cases signal <;> rfl

theorem hear_bus (signal : Signal) : (p.hear signal).bus = p.bus := by
  cases signal <;> rfl

theorem hear_nextId (signal : Signal) : (p.hear signal).story.nextId = p.story.nextId := by
  cases signal with
  | completed command => exact p.story.effectCompleted_nextId command
  | unresolved command reason => exact p.story.unresolved_nextId command reason

theorem awaitsEffect_of_hear {signal : Signal} {command : Int}
    (h : (p.hear signal).story.AwaitsEffect command) :
    p.story.AwaitsEffect command ∧ signal.command ≠ command := by
  cases signal with
  | completed k => exact h.of_effectCompleted
  | unresolved k reason => exact h.of_unresolved

theorem cursor_hear {c : Cursor} (hc : p.story.cursor = some c) (signal : Signal) :
    (p.hear signal).story.cursor =
      if Story.awaits c signal.command then some c.resume else some c := by
  cases signal with
  | completed k => exact Story.cursor_effectCompleted hc k
  | unresolved k reason => exact Story.cursor_unresolved hc k reason

/-- The performance after the story heard some signals. -/
def hearAll (p : Performance α) (signals : List Signal) : Performance α :=
  signals.foldl (fun p s => p.hear s) p

theorem hearAll_stage (signals : List Signal) : (p.hearAll signals).stage = p.stage := by
  induction signals generalizing p with
  | nil => rfl
  | cons signal rest ih => exact ih.trans (hear_stage signal)

theorem hearAll_bus (signals : List Signal) : (p.hearAll signals).bus = p.bus := by
  induction signals generalizing p with
  | nil => rfl
  | cons signal rest ih => exact ih.trans (hear_bus signal)

theorem hearAll_nextId (signals : List Signal) :
    (p.hearAll signals).story.nextId = p.story.nextId := by
  induction signals generalizing p with
  | nil => rfl
  | cons signal rest ih => exact ih.trans (hear_nextId signal)

/-- After some signals the story waits at most for what it waited for before, and none of them was
    about that. -/
theorem awaitsEffect_of_hearAll {signals : List Signal} {command : Int}
    (h : (p.hearAll signals).story.AwaitsEffect command) :
    p.story.AwaitsEffect command ∧ ∀ signal ∈ signals, signal.command ≠ command := by
  induction signals generalizing p with
  | nil => exact ⟨h, by simp⟩
  | cons signal rest ih =>
    obtain ⟨hfirst, hrest⟩ := ih (p := p.hear signal) h
    obtain ⟨hbefore, hne⟩ := awaitsEffect_of_hear hfirst
    exact ⟨hbefore, List.forall_mem_cons.2 ⟨hne, hrest⟩⟩

/-- A cursor that waits for no effect does not heed signals. -/
theorem cursor_hearAll_of_wait_ne {c : Cursor} (hc : p.story.cursor = some c)
    (hwait : c.wait ≠ .effect) (signals : List Signal) :
    (p.hearAll signals).story.cursor = some c := by
  induction signals generalizing p with
  | nil => exact hc
  | cons signal rest ih =>
    refine ih (p := p.hear signal) ?_
    rw [cursor_hear hc, if_neg]
    exact fun hawaits => hwait (Story.awaits_iff.1 hawaits).1

/-- A cursor that waits for an effect resumes, once, if one of the signals is about that. -/
theorem cursor_hearAll_of_mem {c : Cursor} (hc : p.story.cursor = some c) {command : Int}
    (hawaits : Story.awaits c command) {signals : List Signal}
    (hmem : ∃ signal ∈ signals, signal.command = command) :
    (p.hearAll signals).story.cursor = some c.resume := by
  induction signals generalizing p with
  | nil => simp at hmem
  | cons signal rest ih =>
    have hcursor := cursor_hear hc signal
    split at hcursor
    · exact cursor_hearAll_of_wait_ne hcursor (by simp [Cursor.resume]) rest
    · next hnot =>
      refine ih (p := p.hear signal) hcursor ?_
      obtain ⟨other, hother, rfl⟩ := hmem
      rcases List.mem_cons.1 hother with rfl | hrest
      · exact absurd hawaits hnot
      · exact ⟨other, hrest, rfl⟩

/-! ### The invariant of a performance with a stage -/

/-- All commands go to the stage alone. The effects there are in order, and one of them owes the
    story what it waits for. -/
structure Served (p : Performance Float) : Prop where
  recipients : ∀ subsystem, p.bus.recipients subsystem = [.stage]
  staged : ∃ stage, p.stage = some stage ∧ stage.Sound p.story.nextId ∧
    ∀ command, p.story.AwaitsEffect command → stage.Owes command

/-- What leaves the stage's effects alone and does not make the story wait for an effect changes
    nothing about who is owed what. -/
theorem Served.of_animator_eq {p p' : Performance Float} (h : p.Served)
    (hbus : p'.bus.handlers = p.bus.handlers)
    (hstage : p'.stage.map (·.animator) = p.stage.map (·.animator))
    (hnextId : p'.story.nextId = p.story.nextId)
    (hawaits : ∀ command, p'.story.AwaitsEffect command → p.story.AwaitsEffect command) :
    p'.Served := by
  obtain ⟨stage, hs, hsound, howes⟩ := h.staged
  rw [hs, Option.map_some, Option.map_eq_some_iff] at hstage
  obtain ⟨stage', hs', hanimator⟩ := hstage
  refine ⟨fun subsystem => ?_, stage', hs', ?_, fun command hc => ?_⟩
  · rw [← h.recipients subsystem, Bus.recipients, hbus, Bus.recipients]
  · exact hnextId ▸ hsound.of_animator_eq hanimator
  · obtain ⟨e, he, hcommand⟩ := howes command (hawaits command hc)
    exact ⟨e, hanimator ▸ he, hcommand⟩

theorem Served.hear {p : Performance Float} (h : p.Served) (signal : Signal) :
    (p.hear signal).Served := by
  refine h.of_animator_eq ?_ ?_ (hear_nextId signal) fun command hc => (awaitsEffect_of_hear hc).1
  · rw [hear_bus]
  · rw [hear_stage]

/-- A sound performance that is served by a stage. -/
abbrev Attended (settings : RuntimeSettings) (p : Performance Float) : Prop :=
  p.Sound settings ∧ p.Served

end Performance

/-- A press of the player has to do with the dialogue box only. -/
theorem Stage.press_animator (stage : Stage Float) (awaiting : Bool) :
    (stage.press awaiting).2.animator = stage.animator := by
  unfold Stage.press
  split
  · dsimp only
    split <;> rfl
  · rfl

namespace Play

open Performance

variable {settings : RuntimeSettings} {p : Performance Float}

/-- Work on the stage that ends well: the story hears its signals. -/
theorem onStage_ends {work : StageAct Float Unit} {stage : Stage Float}
    {Q : Unit → StageRun Float → Prop} (hstage : p.stage = some stage)
    (h : Ends work { stage } Q) :
    Ends (onStage work) p fun _ p' => ∃ run : StageRun Float, Q () run ∧
      p' = ({ p with stage := some run.stage } : Performance Float).hearAll run.signals := by
  obtain ⟨x, run, houtcome, hQ⟩ := h
  refine Ends.get_bind ?_
  rw [hstage]
  dsimp only
  rw [houtcome]
  exact Ends.change_bind (Ends.pure ⟨run, hQ, rfl⟩)

/-- Time that passes on stage: what an effect owes the story it still owes, or the story hears of
    it. -/
theorem update_ends (h : p.Attended settings) {dt : Float} (hdt : Scalar.lessEq Scalar.zero dt) :
    Ends (onStage (StageAct.update dt)) p fun _ p' => p'.Attended settings := by
  obtain ⟨hp, hserved⟩ := h
  obtain ⟨stage, hstage, hsound, howes⟩ := hserved.staged
  have hends := onStage_ends hstage (StageAct.update_ends hsound hdt)
  refine (hends.and_keeps (onStage_safe _) hp).mono fun _ p' hp' => ?_
  obtain ⟨⟨run, ⟨hsound', hsettled⟩, rfl⟩, hp'⟩ := hp'
  refine ⟨hp', fun subsystem => ?_, run.stage, hearAll_stage _, ?_, fun command hc => ?_⟩
  · rw [hearAll_bus]
    exact hserved.recipients subsystem
  · rw [hearAll_nextId]
    exact hsound'
  · obtain ⟨hbefore, hunheard⟩ := awaitsEffect_of_hearAll hc
    obtain ⟨e, he, hcommand⟩ := howes command hbefore
    rcases hsettled e he command hcommand with hcompleted | ⟨howes', -⟩
    · exact absurd rfl (hunheard _ hcompleted)
    · exact howes'

variable {reaction : Nat → Command → Play Float Unit}

/-- A command on its way, after a step that may have made the story wait for its effect and for no
    other: the stage sees to it that somebody owes the story the acknowledgement, if it does not
    report the command. -/
theorem publish_ends {c : Command} {stage : Stage Float}
    (hrecipients : ∀ subsystem, p.bus.recipients subsystem = [.stage])
    (hstage : p.stage = some stage) (hsound : stage.Sound c.id) (hplayable : c.Playable)
    (hnextId : p.story.nextId = c.id + 1)
    (hawaits : ∀ command, p.story.AwaitsEffect command → command = c.id ∧ c.durational) :
    Ends (publish reaction c) p fun _ p' => p'.Served := by
  have hends := onStage_ends hstage (StageAct.handle_ends hsound hplayable)
  refine Ends.get_bind ?_
  dsimp only
  rw [hrecipients]
  refine hends.then_bind fun _ p' hp' => Ends.pure ?_
  obtain ⟨run, ⟨hsound', hanswered⟩, rfl⟩ := hp'
  refine ⟨fun subsystem => ?_, run.stage, hearAll_stage _, ?_, fun command hc => ?_⟩
  · rw [hearAll_bus]
    exact hrecipients subsystem
  · rw [hearAll_nextId, hnextId]
    exact hsound'
  · obtain ⟨hbefore, hunheard⟩ := awaitsEffect_of_hearAll hc
    obtain ⟨rfl, hdurational⟩ := hawaits command hbefore
    rcases hanswered hdurational with howes | ⟨reason, hreported⟩
    · exact howes
    · exact absurd rfl (hunheard _ hreported)

/-- A run of steps ends well: each finds its directive, and the stage can carry out what it says. -/
theorem steps_ends (hreaction : ∀ number c, Safe settings (reaction number c))
    (h : p.Attended settings) (number count : Nat) :
    Ends (steps (publish reaction) number count) p fun _ p' => p'.Attended settings := by
  induction count generalizing p with
  | zero => exact Ends.pure h
  | succ count ih =>
    obtain ⟨hp, hserved⟩ := h
    refine Ends.get_bind ?_
    dsimp only
    split
    · exact Ends.pure ⟨hp, hserved⟩
    next c hc =>
    split
    · next hready =>
      have hcursor := hp.story_sound.cursor_sound c hc
      have hstepped := (hp.story_sound.step hc hready.2).1
      cases hhere : c.here with
      | none =>
        obtain ⟨scene, hscene⟩ := hcursor.scene_eq_some
        rw [Story.step_of_here_eq_none (by simp [hscene]) hhere] at hstepped ⊢
        dsimp only
        refine Ends.change_bind (Ends.pure ⟨⟨hp.repertoire_compiled, hstepped⟩, ?_⟩)
        refine hserved.of_animator_eq rfl rfl rfl fun command hawaits => ?_
        exact (Story.not_awaitsEffect rfl (by simp [Cursor.halt]) hawaits).elim
      | some d =>
        obtain ⟨command, hcommand, hstep⟩ :=
          Story.step_of_here_eq_some (s := p.story) hhere fun direction hdirection =>
            hcursor.jumpsWithin (hdirection ▸ hhere)
        rw [hstep] at hstepped ⊢
        obtain ⟨hplayable, hdurational⟩ := (hcursor.here_wellFormed hhere).playable hcommand
        have hid : command.id = p.story.nextId := Story.id_of_dispatch hcommand
        obtain ⟨stage, hstage, hsound, -⟩ := hserved.staged
        refine Ends.change_bind ?_
        dsimp only
        have hpublished : Ends (publish reaction command) _ _ := publish_ends
          (p := { p with story := p.story.handOn c d command })
          hserved.recipients hstage (hid ▸ hsound) hplayable (hid ▸ rfl) fun k hk => by
            obtain ⟨c', hc', hawaits⟩ := hk
            cases hc'
            obtain ⟨hd, rfl⟩ := Story.next_awaits hready.2 hawaits
            exact ⟨hid.symm, hdurational.trans hd⟩
        refine (hpublished.and_keeps (publish_safe hreaction command)
          ⟨hp.repertoire_compiled, hstepped⟩).then_bind fun _ p' hp' => ?_
        exact (ih hp'.symm).then_bind fun _ p'' hp'' => Ends.pure hp''
    · exact Ends.pure ⟨hp, hserved⟩

theorem tick_ends (hreaction : ∀ number c, Safe settings (reaction number c))
    (h : p.Attended settings) :
    Ends (tick (publish reaction)) p fun _ p' => p'.Attended settings := by
  refine Ends.get_bind ?_
  dsimp only
  split
  · exact Ends.pure h
  · exact steps_ends hreaction h _ _

end Play

/-- An operation of a performance in which nobody but the story and its stage is on the bus: the
    time that passes on stage is not negative. -/
def Cue.Plays : Cue Float → Prop
  | .subscribe _ _ => False
  | .publish _ => False
  | .update dt => Scalar.lessEq Scalar.zero dt
  | .frame dt => Scalar.lessEq Scalar.zero dt
  | _ => True

namespace Performance

/-- Every such operation leaves the performance attended, if the steps of the story and the
    deliveries do: what happens to the story alone makes it wait for nothing new. -/
theorem Attended.invariant {settings : RuntimeSettings} :
    Invariant Cue.Plays (fun _ => True) (Attended settings) where
  spares _ _ := trivial
  of_eq p p' h hrepertoire hstory hstage hbus hhandlers := by
    refine ⟨Sound.lasting.of_eq p p' h.1 hrepertoire hstory hstage hbus hhandlers, ?_⟩
    refine h.2.of_animator_eq hbus (by rw [hstage]) (by rw [hstory]) fun command hc => ?_
    rwa [hstory] at hc
  hear p signal h := ⟨h.1.hear signal, h.2.hear signal⟩
  advance p h := by
    refine ⟨Sound.lasting.advance p h.1, ?_⟩
    exact h.2.of_animator_eq rfl rfl p.story.advance_nextId fun command hc => hc.of_advance
  abandon p id _ h := by
    refine ⟨Sound.lasting.abandon p id trivial h.1, h.2.of_animator_eq rfl rfl rfl ?_⟩
    rintro command ⟨c, hc, -⟩
    cases hc
  begin p id shelved repertoire scene _ h hload hfirst := by
    refine ⟨Sound.lasting.begin p id shelved repertoire scene trivial h.1 hload hfirst, ?_⟩
    refine h.2.of_animator_eq rfl rfl rfl fun command hc => ?_
    exact (Story.not_awaitsEffect rfl (by simp) hc).elim
  empty p id shelved repertoire h hload hfirst := by
    obtain ⟨hsound, -⟩ := Sound.lasting.empty p id shelved repertoire h.1 hload hfirst
    exact ⟨⟨hsound, h.2.of_animator_eq rfl rfl rfl fun _ hc => hc⟩, trivial⟩
  register p id text script repertoire h hcompile hregister :=
    ⟨Sound.lasting.register p id text script repertoire h.1 hcompile hregister,
      h.2.of_animator_eq rfl rfl rfl fun _ hc => hc⟩
  setVariable p name value _ h :=
    ⟨Sound.lasting.setVariable p name value trivial h.1,
      h.2.of_animator_eq rfl rfl rfl fun _ hc => hc.of_cursor_eq rfl⟩
  eraseVariable p name _ h :=
    ⟨Sound.lasting.eraseVariable p name trivial h.1,
      h.2.of_animator_eq rfl rfl rfl fun _ hc => hc.of_cursor_eq rfl⟩
  subscribe _ _ _ hcue _ := hcue.elim
  update dt hcue := by
    have hdt : Scalar.lessEq Scalar.zero dt := hcue.elim id id
    exact Keeps.of_ends fun p hp => Play.update_ends hp hdt
  press p stage awaiting h hstage := by
    refine ⟨Sound.lasting.press p stage awaiting h.1 hstage, ?_⟩
    refine h.2.of_animator_eq rfl ?_ rfl fun _ hc => hc
    rw [hstage]
    exact congrArg some (stage.press_animator awaiting)

/-- A performance stays attended over any run of such operations. -/
theorem Attended.after {settings : RuntimeSettings} {p : Performance Float}
    (h : p.Attended settings) (depth : Nat) {cues : List (Cue Float)}
    (hcues : ∀ cue ∈ cues, cue.Plays) : (p.after depth cues).Attended settings := by
  have htick : Keeps (Attended settings) (fun _ => True)
      (Play.tick (Play.publish (Play.react depth))) :=
    Keeps.of_ends fun p hp => Play.tick_ends (Play.react_safe depth) hp
  have hplays (cue : Cue Float) (hcue : cue.Plays) :
      Keeps (Attended settings) (fun _ => True) (Play.perform (Play.react depth) cue) :=
    Play.perform_keeps Attended.invariant htick (fun _ hc => hc.elim) hcue
  exact after_keeps hplays h hcues

theorem withStage_recipients {α : Type} (p : Performance α) (hbus : p.bus.handlers = [])
    (stage : Stage α) (subsystem : Subsystem) :
    (p.withStage stage).bus.recipients subsystem = [.stage] := by
  obtain ⟨handlers, waiting⟩ : ∃ handlers waiting, p.bus = ⟨handlers, waiting⟩ := ⟨_, _, rfl⟩
  cases subsystem <;> simp [withStage, Vocabulary.members, Bus.recipients, Bus.register, hbus]

/-- A performance without scripts or a cursor, on an empty stage, is attended. -/
theorem withStage_attended (p : Performance Float) (hcursor : p.story.cursor = none)
    (hshelf : p.repertoire.shelf = []) (hbus : p.bus.handlers = []) (cast : Cast)
    (reveal : RevealParams Float) (durations : EffectDurations Float) (logCapacity : Nat) :
    (p.withStage (Stage.empty cast reveal durations logCapacity)).Attended p.story.settings := by
  refine ⟨⟨fun entry hentry => ?_, rfl, fun c hc => ?_⟩, ?_, _, rfl, ⟨⟨?_, ?_⟩, ?_, ?_⟩, ?_⟩
  · simp [withStage, hshelf] at hentry
  · simp [withStage, hcursor] at hc
  · exact p.withStage_recipients hbus _
  · exact List.nodup_nil
  · exact fun i hi => absurd hi List.not_mem_nil
  · exact fun e he => absurd he List.not_mem_nil
  · exact List.nodup_nil
  · rintro command ⟨c, hc, -⟩
    simp [withStage, hcursor] at hc

/-- Take a story and a stage that are alone on a bus, and operate them in any way: start any scripts
    at any time, let the story go on and the time of the stage pass, press, and signal out of turn.
    Whenever the story then waits for an effect, exactly one effect on stage owes it the
    acknowledgement, and once time of that effect's duration passes on stage, the story is ready at
    the next directive. -/
theorem awaited_effect_ends (p : Performance Float) (hcursor : p.story.cursor = none)
    (hshelf : p.repertoire.shelf = []) (hbus : p.bus.handlers = []) (cast : Cast)
    (reveal : RevealParams Float) (durations : EffectDurations Float) (logCapacity depth : Nat)
    (cues : List (Cue Float)) (hcues : ∀ cue ∈ cues, cue.Plays) (q : Performance Float)
    (hq : q = (p.withStage (Stage.empty cast reveal durations logCapacity)).after depth cues)
    (c : Cursor) (hc : q.story.cursor = some c) (hwait : c.wait = .effect) :
    ∃ command stage e, c.pending = some command ∧ q.stage = some stage ∧
      stage.animator.unfinished.filter (fun e' => Effect.command? e' = some command) = [e] ∧
      ∀ dt, Scalar.lessEq Scalar.zero dt → Scalar.lessEq e.duration dt →
        ∃ q', (Play.perform (Play.react depth) (.update dt)).outcome q = (.ok .nothing, q') ∧
          q'.story.cursor = some { c with index := c.index + 1, wait := .ready, pending := none } := by
  obtain ⟨hsound, hserved⟩ : q.Attended p.story.settings := by
    rw [hq]
    exact (p.withStage_attended hcursor hshelf hbus cast reveal durations logCapacity).after depth
      hcues
  have hpending := (hsound.story_sound.cursor_sound c hc).pending_iff.2 (.inr hwait)
  obtain ⟨command, hcommand⟩ := Option.ne_none_iff_exists'.1 hpending
  have hawaits : Story.awaits c command := Story.awaits_iff.2 ⟨hwait, hcommand⟩
  obtain ⟨stage, hstage, hstaged, howes⟩ := hserved.staged
  obtain ⟨e, he, hecommand⟩ := howes command ⟨c, hc, hawaits⟩
  refine ⟨command, stage, e, hcommand, hstage, ?_, fun dt hdt hduration => ?_⟩
  · rw [← hecommand]
    exact hstaged.effects.filter_eq_singleton he
  · have hends := Play.onStage_ends hstage
      (StageAct.update_ends hstaged hdt)
    obtain ⟨_, q', houtcome, run, ⟨-, hsettled⟩, rfl⟩ := hends
    refine ⟨_, outcome_bind_of_ok houtcome, ?_⟩
    rcases hsettled e he command hecommand with hcompleted | ⟨-, hnot⟩
    · exact cursor_hearAll_of_mem (p := { q with stage := some run.stage }) hc hawaits
        ⟨_, hcompleted, rfl⟩
    · exact absurd hduration hnot

/-- Mia fades in, and the story is started anew before that is over: her first fade is cancelled,
    and the second is the one that the story waits for. -/
theorem awaited_effect_ends_started_anew :
    let mia : Character := ⟨"mia", [("plain", [("calm", "mia.png")])], "plain", "calm", ""⟩
    let p : Performance Float := { repertoire := { root := Path.ofString "scripts" }, story := {} }
    let stage : Stage Float := Stage.empty { characters := [("mia", mia)] } .standard .standard 4
    let cues : List (Cue Float) :=
      [.register ⟨"one", "one"⟩ "SCENE a\n(mia fades in)\n(mia moves to left)\nCURTAIN\n",
        .start ⟨"one", "one"⟩, .tick, .start ⟨"one", "one"⟩, .tick]
    let q := (p.withStage stage).after 1 cues
    (∀ cue ∈ cues, cue.Plays) ∧
      ∃ c, q.story.cursor = some c ∧ c.wait = .effect ∧ c.pending = some 2 ∧
        ∃ stage e, q.stage = some stage ∧
          stage.animator.unfinished.filter (fun e' => Effect.command? e' = some 2) = [e] := by
  intro mia p stage cues q
  have hcues : ∀ cue ∈ cues, cue.Plays := by
    simp only [cues, List.forall_mem_cons, List.not_mem_nil, false_implies, implies_true, and_true]
    exact ⟨trivial, trivial, trivial, trivial, trivial⟩
  have hwaiting : q.story.cursor.map (fun c => (c.wait, c.pending)) = some (.effect, some 2) := by
    decide +kernel
  obtain ⟨c, hc, hboth⟩ := Option.map_eq_some_iff.1 hwaiting
  obtain ⟨hwait, hpending⟩ := Prod.mk.injEq .. ▸ hboth
  refine ⟨hcues, c, hc, hwait, hpending, ?_⟩
  obtain ⟨command, stage', e, hcommand, hstage, hone, -⟩ :=
    awaited_effect_ends p rfl rfl rfl _ _ _ _ 1 cues hcues q rfl c hc hwait
  rw [hpending] at hcommand
  cases hcommand
  exact ⟨stage', e, hstage, hone⟩

end Performance

end VisualNovel

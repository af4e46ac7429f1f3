import VisualNovel.Proofs.Performance.Waiting
import VisualNovel.Proofs.Stage.Answering
import VisualNovel.Proofs.Stage.Revealing
import VisualNovel.Proofs.Story.Resting

/-!
A story and a stage that have only each other go along in step. The box holds a line exactly while
the story waits for the player to read it, an effect runs exactly while the story waits for that
effect, and nothing is ever signalled out of turn. This holds between any two steps of the story, and
it holds whatever time passes in between.
-/

namespace VisualNovel

open Act

/-- The stage shows what the cursor asks for: the effect that it waits for and no other runs, and the
    box holds a line where the player is to read one. -/
structure Stage.Matches (stage : Stage Float) (c : Cursor) : Prop where
  owes : stage.OwesOnly c.owed
  shown : stage.box.line.isSome ↔ c.SaysLine
  begun : stage.box.Begun

/-- A command leaves a line in an empty box where it says something. -/
theorem Command.Answered.isSome_line {command : Command} {s : Stage Float} {u v : StageRun Float}
    (h : command.Answered s u v) (hempty : ¬ s.box.line.isSome) :
    u.stage.box.line.isSome ↔ command.subsystem = .dialogue := by
  by_cases hdialogue : command.subsystem = .dialogue
  · obtain ⟨params, speaker, text, hline⟩ := h.shown hdialogue
    exact iff_of_true (by simp [hline]) hdialogue
  · rw [h.box hdialogue]
    exact iff_of_false hempty hdialogue

theorem Command.Answered.begun {command : Command} {s : Stage Float} {u v : StageRun Float}
    (h : command.Answered s u v) (hbegun : s.box.Begun) : u.stage.box.Begun := by
  by_cases hdialogue : command.subsystem = .dialogue
  · obtain ⟨params, speaker, text, hline⟩ := h.shown hdialogue
    exact DialogueBox.begun_of_start hline
  · rw [h.box hdialogue]
    exact hbegun

namespace Performance

/-- The performance once the effect that its story waits for is over, without what else time does to
    its stage. -/
def rest (p : Performance Float) : Performance Float :=
  { p with
    story := p.story.rested
    stage := p.stage.map Stage.settled }

/-- A performance of a story and a stage alone, between two operations or two steps, after a script
    was started. -/
structure InStep (settings : RuntimeSettings) (p : Performance Float) : Prop where
  sound : p.Sound settings
  recipients : ∀ subsystem, p.bus.recipients subsystem = [.stage]
  staged : ∃ stage c, p.stage = some stage ∧ p.story.cursor = some c ∧ stage.Matches c
  inTurn : p.story.InTurn

/-- What a press of the player comes to, and whether the story goes on. -/
inductive Pressed (p : Performance Float) : Bool → Performance Float → Prop
  /-- A line that is still appearing is complete. -/
  | completes {stage : Stage Float} {line : RevealedLine Float} (hstage : p.stage = some stage)
      (hline : stage.box.line = some line) (hrevealing : line.isFinished = false) :
      Pressed p false { p with
        stage := some { stage with
          box := { stage.box with line := some { line with elapsed := line.duration } } } }
  /-- The story goes on to the next directive, and no line is left in the box. -/
  | goesOn {stage : Stage Float} {c : Cursor} (hstage : p.stage = some stage)
      (hfinished : ∀ line, stage.box.line = some line → line.isFinished)
      (hc : p.story.cursor = some c) (hwait : c.wait = .advance) :
      Pressed p true { p with
        story := { p.story with cursor := some c.resume }
        stage := some { stage with box := stage.box.hide } }
  /-- Nothing happens, as the story waits for no press. -/
  | ignored {c : Cursor} (hc : p.story.cursor = some c) (hwait : c.wait ≠ .advance) :
      Pressed p false p

/-- A performance whose story waits for no effect is at rest but for the time on its stage. -/
theorem InStep.rest_eq {settings : RuntimeSettings} {p : Performance Float} {c : Cursor}
    (h : p.InStep settings) (hc : p.story.cursor = some c) (hwait : c.wait ≠ .effect) :
    ∃ stage, p.stage = some stage ∧ stage.OwesOnly none ∧
      p.rest = { p with stage := some stage.still } := by
  obtain ⟨stage, c', hstage, hc', hmatches⟩ := h.staged
  cases hc.symm.trans hc'
  have howes := hmatches.owes
  rw [Cursor.owed_of_wait_ne hwait] at howes
  refine ⟨stage, hstage, howes, ?_⟩
  rw [rest, hstage, Option.map_some, Stage.settled_of_running_eq_nil howes,
    Story.rested_of_wait_ne hc hwait]

/-- A story and a stage alone are in step from the start of a script on. -/
theorem inStep_of_start {files : FileTree} {repertoire : Repertoire} {bindings : Variables}
    {settings : RuntimeSettings} (hscripts : repertoire.Compiled) {cast : Cast}
    {reveal : RevealParams Float} {durations : EffectDurations Float} {logCapacity : Nat}
    {reaction : Nat → Command → Play Float Unit} {id : ScriptId} {answer : CueAnswer}
    {p q : Performance Float} (hp : p = { files, repertoire, story := { bindings, settings } })
    (hstart : (Play.perform reaction (.start id)).outcome
      (p.withStage (Stage.empty cast reveal durations logCapacity)) = (.ok answer, q)) :
    q.InStep settings := by
  obtain ⟨shelved, repertoire', scene, hload, hfirst, rfl⟩ := Play.of_start_eq_ok hstart
  subst hp
  obtain ⟨hscript, hrepertoire⟩ := hscripts.load hload
  have hfresh : Story.Sound settings { bindings, settings } := ⟨rfl, fun c hc => by cases hc⟩
  refine ⟨⟨hrepertoire, hfresh.abandon.begin id hscript hfirst⟩, fun subsystem => ?_,
    ⟨_, _, rfl, rfl, rfl, ?_, fun line hline => by cases hline⟩, fun w hw => by cases hw⟩
  · exact withStage_recipients _ rfl (Stage.empty cast reveal durations logCapacity) subsystem
  · exact iff_of_false (by simp [Stage.empty]) (Cursor.not_saysLine (by simp))

/-! ### Hearing -/

variable {p : Performance Float}

theorem hearAll_withStage (signals : List Signal) (stage : Option (Stage Float)) :
    ({ p with stage := stage } : Performance Float).hearAll signals =
      { p.hearAll signals with stage := stage } := by
  induction signals generalizing p with
  | nil => rfl
  | cons signal rest ih =>
    have hfirst : ({ p with stage := stage } : Performance Float).hear signal =
        { p.hear signal with stage := stage } := by cases signal <;> rfl
    show (({ p with stage := stage } : Performance Float).hear signal).hearAll rest = _
    rw [hfirst, ih]
    rfl

theorem inTurn_hearAll {command : Int} {signals : List Signal}
    (hsignals : ∀ signal ∈ signals, ∃ reason, signal = .unresolved command reason)
    (h : p.story.InTurn) : (p.hearAll signals).story.InTurn := by
  induction signals generalizing p with
  | nil => exact h
  | cons signal rest ih =>
    obtain ⟨hfirst, hrest⟩ := List.forall_mem_cons.1 hsignals
    obtain ⟨reason, rfl⟩ := hfirst
    exact ih (p := p.hear (.unresolved command reason)) hrest (h.unresolved command reason)

/-- A cursor that waited for an effect at most of this command goes on if there was any signal about
    it. -/
theorem cursor_hearAll_of_reported {c : Cursor} (hc : p.story.cursor = some c) {command : Int}
    {signals : List Signal} (howed : c.owed = some command → signals ≠ [])
    (hsignals : ∀ signal ∈ signals, ∃ reason, signal = .unresolved command reason)
    (honly : ∀ k, c.owed = some k → k = command) :
    ∃ c', (p.hearAll signals).story.cursor = some c' ∧ c'.owed = none ∧
      (c'.SaysLine ↔ c.SaysLine) := by
  cases hwaits : c.owed with
  | none =>
    refine ⟨c, ?_, hwaits, Iff.rfl⟩
    clear howed honly
    induction signals generalizing p with
    | nil => exact hc
    | cons signal rest ih =>
      obtain ⟨-, hrest⟩ := List.forall_mem_cons.1 hsignals
      refine ih (p := p.hear signal) ?_ hrest
      rw [cursor_hear hc, if_neg]
      intro hawaits
      rw [← Cursor.owed_eq_some_iff, hwaits] at hawaits
      cases hawaits
  | some k =>
    have hk := honly k hwaits
    subst hk
    have hawaits := Cursor.owed_eq_some_iff.1 hwaits
    obtain ⟨signal, rest, rfl⟩ := List.exists_cons_of_ne_nil (howed hwaits)
    obtain ⟨reason, rfl⟩ := hsignals signal List.mem_cons_self
    refine ⟨c.resume, ?_, ?_, iff_of_false ?_ ?_⟩
    · exact cursor_hearAll_of_mem hc hawaits ⟨_, List.mem_cons_self, rfl⟩
    · exact Cursor.owed_of_wait_ne (by simp [Cursor.resume])
    · exact Cursor.not_saysLine (by simp [Cursor.resume])
    · exact Cursor.not_saysLine (by simp [(Story.awaits_iff.1 hawaits).1])

/-! ### The story goes on -/

variable {settings : RuntimeSettings} {c : Cursor}

/-- At the curtain nothing is left to be in step with. -/
theorem InStep.halt (h : p.InStep settings) (hc : p.story.cursor = some c)
    (hready : c.wait = .ready)
    (hsound : Story.Sound settings { p.story with cursor := some c.halt }) :
    InStep settings { p with story := { p.story with cursor := some c.halt } } := by
  obtain ⟨stage, c', hstage, hc', howes, hreading, hbegun⟩ := h.staged
  cases hc.symm.trans hc'
  refine ⟨⟨h.sound.repertoire_compiled, hsound⟩, h.recipients,
    ⟨stage, c.halt, hstage, rfl, ?_, ?_, hbegun⟩, h.inTurn⟩
  · rwa [Cursor.owed_of_wait_ne (by simp [hready])] at howes
  · rw [hreading]
    refine iff_of_false (Cursor.not_saysLine (by simp [hready])) ?_
    exact Cursor.not_saysLine (by simp [Cursor.halt])

/-- The story hears what the stage answered to a command, and they are in step again. -/
theorem InStep.handOn {u v : StageRun Float} {stage : Stage Float} {d : Directive}
    {command : Command} (h : p.InStep settings) (hc : p.story.cursor = some c)
    (hready : c.wait = .ready) (hstage : p.stage = some stage) (hd : c.here = some d)
    (hcommand : d.dispatch (p.story.resolve d).1 p.story.nextId = .ok command)
    (hsound : (p.story.handOn c d command).Sound settings)
    (hanswered : command.Answered stage u v) :
    InStep settings
      { ({ p with story := p.story.handOn c d command } : Performance Float).hearAll u.signals with
        stage := some u.stage } := by
  obtain ⟨stage', c', hstage', hc', -, hreading, hbegun⟩ := h.staged
  cases hstage.symm.trans hstage'
  cases hc.symm.trans hc'
  obtain ⟨-, hsaid⟩ := Directive.durational_of_dispatch hcommand
  have hcursor := h.sound.story_sound.cursor_sound c hc
  have hdurational := ((hcursor.here_wellFormed hd).playable hcommand).2
  have hid : command.id = p.story.nextId := Story.id_of_dispatch hcommand
  have howed := p.story.next_owed (d := d) hready
  rw [← hdurational, ← hid] at howed
  have hshown : u.stage.box.line.isSome ↔ (p.story.next c d).SaysLine := by
    rw [Story.next_saysLine hready hd, ← hsaid]
    refine hanswered.isSome_line ?_
    rw [hreading]
    exact Cursor.not_saysLine (by simp [hready])
  generalize hp₁ : ({ p with story := p.story.handOn c d command } : Performance Float) = p₁
  have hcursor₁ : p₁.story.cursor = some (p.story.next c d) := hp₁ ▸ rfl
  have hsound₁ : p₁.Sound settings := hp₁ ▸ ⟨h.sound.repertoire_compiled, hsound⟩
  have hinTurn₁ : p₁.story.InTurn := hp₁ ▸ h.inTurn.handOn command
  have hbus₁ : p₁.bus = p.bus := hp₁ ▸ rfl
  have hheard := hsound₁.foldl_hear u.signals
  have hstaged : ∃ c', (p₁.hearAll u.signals).story.cursor = some c' ∧
      u.stage.OwesOnly c'.owed ∧ (c'.SaysLine ↔ (p.story.next c d).SaysLine) := by
    rcases hanswered.effects with ⟨hnone, -, hreported⟩ | ⟨htakesTime, hsignals, howes, -⟩
    · have honly (k : Int) (hk : (p.story.next c d).owed = some k) :
          command.durational ∧ k = command.id := by
        rw [howed] at hk
        split at hk
        · next htakesTime => exact ⟨htakesTime, (Option.some.inj hk).symm⟩
        · cases hk
      obtain ⟨c', hc', howed', hsame⟩ := cursor_hearAll_of_reported hcursor₁
        (fun hwaits => hreported (honly _ hwaits).1) hanswered.reported fun k hk => (honly k hk).2
      exact ⟨c', hc', howed' ▸ hnone, hsame⟩
    · refine ⟨_, hsignals ▸ hcursor₁, ?_, Iff.rfl⟩
      rw [howed, if_pos htakesTime]
      exact howes
  obtain ⟨c', hc', howes, hsame⟩ := hstaged
  refine ⟨⟨hheard.1, hheard.2⟩, fun subsystem => ?_,
    ⟨u.stage, c', rfl, hc', howes, hshown.trans hsame.symm, hanswered.begun hbegun⟩,
    inTurn_hearAll hanswered.reported hinTurn₁⟩
  show (p₁.hearAll u.signals).bus.recipients subsystem = _
  rw [hearAll_bus, hbus₁]
  exact h.recipients subsystem

end Performance

namespace Play

open Performance

variable {settings : RuntimeSettings} {p : Performance Float}

/-- Time that passes on stage keeps a performance in step, and where it rests stays the same. -/
theorem update_inStep (h : p.InStep settings) (dt : Float) :
    Ends (onStage (StageAct.update dt)) p fun _ p' => p'.InStep settings ∧ p'.rest = p.rest := by
  obtain ⟨hsound, hrecipients, ⟨stage, c, hstage, hc, howes, hreading, hbegun⟩, hinTurn⟩ := h
  have hends := onStage_ends hstage (@StageAct.update_passes { stage } _ howes dt)
  refine (hends.and_keeps (onStage_safe _) hsound).mono fun _ p' hp' => ?_
  obtain ⟨⟨⟨stage', signals⟩, ⟨⟨hsettled, hpassed⟩, hbox'⟩, rfl⟩, hsound'⟩ := hp'
  change stage'.settled = stage.settled at hsettled
  change stage'.box = stage.box.update dt at hbox'
  have hshown : stage'.box.line.isSome ↔ c.SaysLine := by
    rw [hbox', DialogueBox.line_update, hreading]
  have hbegun' : stage'.box.Begun := hbox' ▸ hbegun.update dt
  rcases hpassed with ⟨howes', hsignals⟩ | ⟨command, howed, howes', hsignals⟩
  · change signals = [] at hsignals
    subst hsignals
    have hresult : ({ p with stage := some stage' } : Performance Float).hearAll [] =
        { p with stage := some stage' } := rfl
    rw [hresult] at hsound' ⊢
    refine ⟨⟨hsound', hrecipients, ⟨stage', c, rfl, hc, howes', hshown, hbegun'⟩,
      hinTurn⟩, ?_⟩
    simp only [rest, Option.map_some, hsettled, hstage]
  · change signals = [.completed command] at hsignals
    subst hsignals
    have hawaits := Cursor.owed_eq_some_iff.1 howed
    have hwait := (Story.awaits_iff.1 hawaits).1
    have hheard : p.story.effectCompleted command =
        (true, { p.story with cursor := some c.resume }) := by
      unfold Story.effectCompleted
      rw [hc]
      exact if_pos hawaits
    have hresult : ({ p with stage := some stage' } : Performance Float).hearAll
        [.completed command] =
          { p with stage := some stage', story := { p.story with cursor := some c.resume } } := by
      show ({ p with stage := some stage', story := (p.story.effectCompleted command).2 } :
        Performance Float) = _
      rw [hheard]
    rw [hresult] at hsound' ⊢
    refine ⟨⟨hsound', hrecipients, ⟨stage', c.resume, rfl, rfl, ?_, ?_, hbegun'⟩, hinTurn⟩, ?_⟩
    · rw [Cursor.owed_of_wait_ne (by simp [Cursor.resume])]
      exact howes'
    · rw [hshown]
      refine iff_of_false (Cursor.not_saysLine (by simp [hwait])) ?_
      exact Cursor.not_saysLine (by simp [Cursor.resume])
    · have hrested : Story.rested { p.story with cursor := some c.resume } = p.story.rested := by
        rw [Story.rested_of_wait_ne rfl (by simp [Cursor.resume]), Story.rested, hc]
        exact (if_pos hwait).symm
      simp only [rest, hrested, Option.map_some, hsettled, hstage]

/-! ### Steps -/

variable {c : Cursor}

/-- Work on two stages that ends well on both: the story hears its signals. -/
theorem onStage_both {q : Performance Float} {work : StageAct Float Unit} {s t : Stage Float}
    {Q : Unit → StageRun Float → StageRun Float → Prop} (hs : p.stage = some s)
    (ht : q.stage = some t) (h : EndBoth work { stage := s } work { stage := t } Q) :
    EndBoth (onStage work) p (onStage work) q fun _ p' q' => ∃ u v, Q () u v ∧
      p' = ({ p with stage := some u.stage } : Performance Float).hearAll u.signals ∧
      q' = ({ q with stage := some v.stage } : Performance Float).hearAll v.signals := by
  obtain ⟨x, u, v, hu, hv, hQ⟩ := h
  refine EndBoth.get_bind ?_
  rw [hs, ht]
  dsimp only
  rw [hu, hv]
  exact EndBoth.change_bind (EndBoth.pure ⟨u, v, hQ, rfl, rfl⟩)

/-- A command on its way to two stages that differ only in what time did to them. -/
theorem publish_both (reaction : Nat → Command → Play Float Unit) {s t : Stage Float}
    {command : Command}
    (hrecipients : ∀ subsystem, p.bus.recipients subsystem = [.stage]) (hstage : p.stage = some s)
    (hstill : s.still = t.still) (hs : s.OwesOnly none) (ht : t.OwesOnly none)
    (hplayable : command.Playable)
    (hdurational : command.durational ↔ command.verb = "fade" ∨ command.verb = "move") :
    EndBoth (publish reaction command) p
      (publish reaction command) { p with stage := some t } fun _ p' q' =>
        ∃ u v, command.Answered s u v ∧
          p' = { p.hearAll u.signals with stage := some u.stage } ∧
          q' = { p.hearAll u.signals with stage := some v.stage } := by
  have hboth := onStage_both (q := { p with stage := some t }) hstage rfl
    (StageAct.handle_both hstill hs ht hplayable hdurational)
  refine EndBoth.get_bind ?_
  dsimp only
  rw [hrecipients]
  refine hboth.then_bind fun _ p' q' hp' => EndBoth.pure ?_
  obtain ⟨u, v, hanswered, rfl, rfl⟩ := hp'
  refine ⟨u, v, hanswered, hearAll_withStage u.signals (some u.stage), ?_⟩
  rw [← hanswered.signals_eq]
  exact hearAll_withStage (p := p) u.signals (some v.stage)

/-- One step of a story that is ready, with the time that passed on its stage and without: it ends
    well, and both times the performance rests at the same. -/
theorem step_inStep (reaction : Nat → Command → Play Float Unit) (h : p.InStep settings)
    (hc : p.story.cursor = some c)
    (hready : c.wait = .ready) :
    EndBoth (steps (publish reaction) c.number 1) p
      (steps (publish reaction) c.number 1) p.rest fun _ p' q' =>
        p'.InStep settings ∧ p'.rest = q'.rest := by
  obtain ⟨stage, hstage, howes, hrest⟩ := h.rest_eq hc (by simp [hready])
  rw [hrest]
  have hcursor := h.sound.story_sound.cursor_sound c hc
  have hstepped := (h.sound.story_sound.step hc hready).1
  refine EndBoth.get_bind ?_
  dsimp only
  rw [hc]
  dsimp only
  rw [if_pos ⟨rfl, hready⟩]
  cases hhere : c.here with
  | none =>
    obtain ⟨scene, hscene⟩ := hcursor.scene_eq_some
    rw [Story.step_of_here_eq_none (by simp [hscene]) hhere] at hstepped ⊢
    refine EndBoth.change_bind (EndBoth.pure ⟨h.halt hc hready hstepped, ?_⟩)
    simp only [rest, hstage, Option.map_some, Stage.settled_of_running_eq_nil howes,
      Stage.settled_of_running_eq_nil (s := stage.still) rfl, Stage.still_still]
  | some d =>
    obtain ⟨command, hcommand, hstep⟩ :=
      Story.step_of_here_eq_some (s := p.story) hhere fun direction hdirection =>
        hcursor.jumpsWithin (hdirection ▸ hhere)
    rw [hstep] at hstepped ⊢
    refine EndBoth.change_bind ?_
    dsimp only
    have hplayable := ((hcursor.here_wellFormed hhere).playable hcommand).1
    have hdurational := (Directive.durational_of_dispatch hcommand).1
    have hpublished := publish_both reaction
      (p := { p with story := p.story.handOn c d command }) h.recipients hstage
      (t := stage.still) stage.still_still.symm howes rfl hplayable hdurational
    refine hpublished.then_bind fun _ p' q' hp' => EndBoth.pure ?_
    obtain ⟨u, v, hanswered, rfl, rfl⟩ := hp'
    refine ⟨h.handOn hc hready hstage hhere hcommand hstepped hanswered, ?_⟩
    simp only [rest, Option.map_some, hanswered.settled_eq]

/-! ### Presses -/

/-- What a press does, by what is in the box and what the story waits for. -/
theorem outcome_pressThrough {stage stage' : Stage Float} {goesOn : Bool}
    (hstage : p.stage = some stage) (hc : p.story.cursor = some c)
    (hpress : stage.press (c.wait == .advance) = (goesOn, stage'))
    (hgoesOn : goesOn → c.wait = .advance) :
    pressThrough.outcome p = (.ok goesOn, { p with
      story := if goesOn then { p.story with cursor := some c.resume } else p.story
      stage := some stage' }) := by
  have hpressed : (press (c.wait == .advance)).outcome p =
      (.ok goesOn, { p with stage := some stage' }) := by
    rw [press, outcome_bind_of_ok (outcome_get p), hstage]
    dsimp only
    rw [hpress]
    rfl
  have hwait : (p.story.wait == some .advance) = (c.wait == .advance) := by
    rw [Story.wait, hc, Option.map_some]
    rfl
  rw [pressThrough, outcome_bind_of_ok (outcome_get p), hwait, outcome_bind_of_ok hpressed]
  cases goesOn with
  | false => rfl
  | true =>
    have hadvance : p.story.advance = (true, { p.story with cursor := some c.resume }) := by
      rw [Story.advance, hc]
      exact if_pos (hgoesOn rfl)
    simp only [if_true]
    rw [signalStory, outcome_bind_of_ok (outcome_get _)]
    dsimp only
    rw [hadvance]
    rfl

/-- A press completes a line that is still appearing; or it takes the story to the next directive,
    with nothing left in the box; or it does nothing, where the story does not wait for one. -/
theorem pressThrough_ends (h : p.InStep settings) :
    Ends pressThrough p fun goesOn p' => p.Pressed goesOn p' := by
  obtain ⟨stage, c, hstage, hc, -, hreading, -⟩ := h.staged
  cases hline : stage.box.line with
  | none =>
    have hpress (awaiting : Bool) : stage.press awaiting = (awaiting, stage) := by
      rw [Stage.press, Stage.isDialogueVisible, hline]
      rfl
    refine ⟨_, _, outcome_pressThrough hstage hc (hpress _) (by simp), ?_⟩
    by_cases hwait : c.wait = .advance
    · have hhidden : stage = { stage with box := stage.box.hide } := by
        rw [DialogueBox.hide, ← hline]
      have hgoesOn := Pressed.goesOn hstage (by simp [hline]) hc hwait
      rw [← hhidden] at hgoesOn
      simpa [hwait] using hgoesOn
    · have hno : (c.wait == .advance) = false := beq_eq_false_iff_ne.2 hwait
      rw [hno]
      simp only [Bool.false_eq_true, if_false, ← hstage]
      exact Pressed.ignored hc hwait
  | some line =>
    have hreads : c.SaysLine := hreading.1 (by simp [hline])
    cases hfinished : line.isFinished with
    | false =>
      have hpress (awaiting : Bool) : stage.press awaiting = (false, { stage with
          box := { stage.box with line := some { line with elapsed := line.duration } } }) := by
        simp [Stage.press, Stage.isDialogueVisible, DialogueBox.press, DialogueBox.complete, hline,
          hfinished]
      refine ⟨_, _, outcome_pressThrough hstage hc (hpress _) (by simp), ?_⟩
      exact Pressed.completes hstage hline hfinished
    | true =>
      have hpress (awaiting : Bool) :
          stage.press awaiting = (true, { stage with box := stage.box.hide }) := by
        simp [Stage.press, Stage.isDialogueVisible, DialogueBox.press, DialogueBox.complete, hline,
          hfinished]
      refine ⟨_, _, outcome_pressThrough hstage hc (hpress _) fun _ => hreads.1, ?_⟩
      refine Pressed.goesOn hstage (fun line' hline' => ?_) hc hreads.1
      cases hline.symm.trans hline'
      exact hfinished

end Play

namespace Performance

variable {settings : RuntimeSettings} {p p' : Performance Float} {goesOn : Bool}

/-- A press keeps a performance in step. -/
theorem Pressed.inStep (hp : p.Pressed goesOn p') (h : p.InStep settings) :
    p'.InStep settings := by
  obtain ⟨hsound, hrecipients, ⟨stage, c, hstage, hc, hmatches⟩, hinTurn⟩ := h
  obtain ⟨howes, hreading, hbegun⟩ := hmatches
  cases hp with
  | ignored =>
    exact ⟨hsound, hrecipients, ⟨stage, c, hstage, hc, howes, hreading, hbegun⟩, hinTurn⟩
  | completes hstage' hline =>
    cases hstage.symm.trans hstage'
    refine ⟨⟨hsound.1, hsound.2⟩, hrecipients,
      ⟨_, c, rfl, hc, howes, ?_, hbegun.elapse hline _⟩, hinTurn⟩
    rw [← hreading, hline]
    exact iff_of_true rfl rfl
  | goesOn hstage' hfinished hc' hwait =>
    cases hstage.symm.trans hstage'
    cases hc.symm.trans hc'
    refine ⟨⟨hsound.1, hsound.2.resume hc (.inl hwait)⟩, hrecipients,
      ⟨_, c.resume, rfl, rfl, ?_, ?_, DialogueBox.hide_begun _⟩, hinTurn⟩
    · rw [Cursor.owed_of_wait_ne (by simp [hwait])] at howes
      rw [Cursor.owed_of_wait_ne (by simp [Cursor.resume])]
      exact howes
    · refine iff_of_false (by simp [DialogueBox.hide]) ?_
      exact Cursor.not_saysLine (by simp [Cursor.resume])

end Performance

end VisualNovel

import VisualNovel.Performance.Basic
import VisualNovel.Proofs.Act

/-!
What a performance keeps, however it is operated. A property of performances is an invariant if each
kind of change keeps it. Then every operation keeps it, and so does whatever handlers do about
commands in the middle of a delivery.
-/

namespace VisualNovel

open Act

variable {α : Type}

/-- Whatever the handler does about a command is allowed. -/
def Handler.Gives (allowed : Cue α → Prop) (h : Handler α) : Prop :=
  ∀ noticed c cues, h.respond noticed c = some cues → ∀ cue ∈ cues, allowed cue

/-- The story goes wrong in no other way than that a script cannot be loaded. -/
def PlayError.SparesStory : PlayError → Prop
  | .story (.load _) => True
  | .story _ => False
  | _ => True

namespace Performance

variable [Scalar α]

/-- The performance after some operations from outside, with deliveries nested at most `depth`
    deep. An operation that fails leaves what it had done. -/
def after (depth : Nat) (p : Performance α) (cues : List (Cue α)) : Performance α :=
  cues.foldl (fun p cue => ((Play.perform (Play.react depth) cue).outcome p).2) p

/-- What the allowed operations keep, as long as the story makes no step and no command is
    delivered. They fail at most with `E`. -/
structure Invariant (allowed : Cue α → Prop) (E : PlayError → Prop) (I : Performance α → Prop) :
    Prop where
  spares : ∀ e, e.SparesStory → E e
  of_eq : ∀ p p', I p → p'.repertoire = p.repertoire → p'.story = p.story → p'.stage = p.stage →
    p'.bus.handlers = p.bus.handlers → p'.handlers = p.handlers → I p'
  hear : ∀ p signal, I p → I (p.hear signal)
  advance : ∀ p, I p → I { p with story := p.story.advance.2 }
  abandon : ∀ p id, allowed (.start id) → I p → I { p with story := p.story.abandon }
  begin : ∀ p id shelved repertoire scene, allowed (.start id) → I p →
    p.repertoire.load p.files id = .ok (shelved, repertoire) →
    shelved.script.scenes.head? = some scene →
    I { p with repertoire, story := p.story.begin id shelved.script scene.name }
  empty : ∀ p id shelved repertoire, I p →
    p.repertoire.load p.files id = .ok (shelved, repertoire) →
    shelved.script.scenes.head? = none → I { p with repertoire } ∧ E (.story (.noScene ""))
  register : ∀ p id text script repertoire, I p → Script.compile text none = .ok script →
    p.repertoire.register id script = .ok repertoire → I { p with repertoire }
  setVariable : ∀ p name value, allowed (.setVariable name value) → I p →
    I { p with story := { p.story with bindings := p.story.bindings.put name value } }
  eraseVariable : ∀ p name, allowed (.eraseVariable name) → I p →
    I { p with story := { p.story with bindings := p.story.bindings.erase name } }
  subscribe : ∀ p s respond, allowed (.subscribe s respond) → I p →
    I { p with
      bus := p.bus.register s (.handler p.handlers.size)
      handlers := p.handlers.push ⟨0, respond⟩ }
  update : ∀ dt, allowed (.update dt) ∨ allowed (.frame dt) →
    Keeps I E (Play.onStage (StageAct.update dt))
  press : ∀ p stage awaiting, I p → p.stage = some stage →
    I { p with stage := some (stage.press awaiting).2 }

/-- What also the steps of the story and the deliveries of commands keep. -/
structure Lasting (allowed : Cue α → Prop) (E : PlayError → Prop) (I : Performance α → Prop) : Prop
    extends Invariant allowed E I where
  step : ∀ p c, I p → p.story.cursor = some c → c.wait = .ready →
    I { p with story := (p.story.step c).2 } ∧ ∀ e, (p.story.step c).1 = .error e → E (.story e)
  handle : ∀ c, Keeps I E (Play.onStage (StageAct.handle c))
  gives : ∀ p (number : Nat) handler, I p → p.handlers[number]? = some handler →
    handler.Gives allowed
  notice : ∀ p number, I p →
    I { p with handlers := p.handlers.modify number fun h => { h with noticed := h.noticed + 1 } }

end Performance

namespace Play

open Performance

variable {p : Performance α}

/-! ### Outcomes -/

/-- Starting a script abandons the story, and begins it anew if the script can be loaded. -/
theorem outcome_start (id : ScriptId) (p : Performance α) :
    (start id).outcome p =
      match p.repertoire.load p.files id with
      | .error e => (.error (.story (.load e)), { p with story := p.story.abandon })
      | .ok (shelved, repertoire) =>
        match shelved.script.scenes.head? with
        | none =>
          (.error (.story (.noScene "")), { p with repertoire, story := p.story.abandon })
        | some scene =>
          (.ok (), { p with
            repertoire
            story := p.story.abandon.begin id shelved.script scene.name }) := by
  rw [start, changeStory, outcome_bind_of_ok (outcome_change _ _),
    outcome_bind_of_ok (outcome_get _)]
  dsimp only
  cases p.repertoire.load p.files id with
  | error e => rfl
  | ok loaded =>
    obtain ⟨shelved, repertoire⟩ := loaded
    dsimp only
    rw [outcome_bind_of_ok (outcome_change _ _)]
    cases shelved.script.scenes.head? with
    | none => rfl
    | some scene => rfl

/-- The cue to start a script is answered once the script has started. -/
theorem outcome_perform_start [Scalar α] (reaction : Nat → Command → Play α Unit) (id : ScriptId)
    (p : Performance α) :
    (perform reaction (.start id)).outcome p = match (start id : Play α Unit).outcome p with
      | (.error e, p') => (.error e, p')
      | (.ok (), p') => (.ok (.flag true), p') := by
  rw [perform, outcome_bind]
  cases (start id : Play α Unit).outcome p with
  | mk r p' => cases r <;> rfl

/-- A start that succeeds puts the story at the beginning of its script. -/
theorem of_start_eq_ok [Scalar α] {reaction : Nat → Command → Play α Unit} {id : ScriptId}
    {p p' : Performance α} {answer : CueAnswer}
    (h : (perform reaction (.start id)).outcome p = (.ok answer, p')) :
    ∃ shelved repertoire scene, p.repertoire.load p.files id = .ok (shelved, repertoire) ∧
      shelved.script.scenes.head? = some scene ∧
      p' = { p with
        repertoire := repertoire
        story := p.story.abandon.begin id shelved.script scene.name } := by
  rw [outcome_perform_start, outcome_start] at h
  cases hload : p.repertoire.load p.files id with
  | error e =>
    rw [hload] at h
    cases h
  | ok loaded =>
    obtain ⟨shelved, repertoire⟩ := loaded
    rw [hload] at h
    dsimp only at h
    cases hfirst : shelved.script.scenes.head? with
    | none =>
      rw [hfirst] at h
      cases h
    | some scene =>
      rw [hfirst] at h
      cases h
      exact ⟨shelved, repertoire, scene, rfl, hfirst, rfl⟩

section Steps

variable {deliver : Command → Play α Unit}

theorem outcome_steps_of_not_ready {number : Nat}
    (h : ∀ c, p.story.cursor = some c → ¬ (c.number = number ∧ c.wait = .ready)) (count : Nat) :
    (steps deliver number count).outcome p = (.ok [], p) := by
  cases count with
  | zero => rfl
  | succ count =>
    rw [steps, outcome_bind_of_ok (outcome_get p)]
    dsimp only
    cases hc : p.story.cursor with
    | none => rfl
    | some c =>
      dsimp only
      rw [if_neg (h c hc)]
      rfl

theorem outcome_steps_of_ready {c : Cursor} (hc : p.story.cursor = some c) (hready : c.wait = .ready)
    (count : Nat) :
    (steps deliver c.number (count + 1)).outcome p =
      (match (p.story.step c).1 with
        | .error e => throw (.story e)
        | .ok none => pure []
        | .ok (some command) => do
          deliver command
          return command :: (← steps deliver c.number count) : Play α (List Command)).outcome
        { p with story := (p.story.step c).2 } := by
  rw [steps, outcome_bind_of_ok (outcome_get p)]
  dsimp only
  rw [hc]
  dsimp only
  rw [if_pos ⟨rfl, hready⟩, changeStory]
  exact outcome_bind_of_ok (outcome_change _ _)

end Steps

/-! ### Operations that deliver nothing -/

variable {E : PlayError → Prop} {I : Performance α → Prop}

theorem signalStory_keeps {f : Story → Bool × Story}
    (hf : ∀ p, I p → I { p with story := (f p.story).2 }) : Keeps I E (signalStory f) :=
  fun p hp => ⟨hf p hp, fun e he => by cases he⟩

/-- What hears a signal may hear any number of them. -/
theorem foldl_hear_keeps (hhear : ∀ p signal, I p → I (p.hear signal)) (hp : I p)
    (signals : List Signal) : I (signals.foldl (fun p s => p.hear s) p) := by
  induction signals generalizing p with
  | nil => exact hp
  | cons signal rest ih => exact ih (hhear p signal hp)

/-- Where the stage does not matter, no work on it does, but for the signals that come of it. -/
theorem onStage_keeps (hparam : ∀ e, E (.param e)) (hhear : ∀ p signal, I p → I (p.hear signal))
    (hstage : ∀ p stage, I p → I { p with stage := some stage }) (work : StageAct α Unit) :
    Keeps I E (onStage work) := by
  refine Keeps.get_bind fun p _ => ?_
  split
  · exact Keeps.pure ()
  · refine Keeps.bind (Keeps.change fun q hq => ?_) fun _ => ?_
    · exact foldl_hear_keeps hhear (hstage q _ hq) _
    split
    · exact Keeps.pure ()
    · exact Keeps.throw (hparam _)

variable [Scalar α] {allowed : Cue α → Prop}

section Invariant

variable (hI : Invariant allowed E I)

include hI

theorem character_keeps (name : String) : Keeps I E (character name) := by
  refine Keeps.get_bind fun p _ => ?_
  split
  · exact Keeps.pure _
  · exact Keeps.throw (hI.spares _ trivial)

theorem start_keeps {id : ScriptId} (hid : allowed (.start id)) : Keeps I E (start id) := by
  intro p hp
  have habandoned := hI.abandon p id hid hp
  rw [outcome_start]
  cases hload : p.repertoire.load p.files id with
  | error e => exact Keeps.throw (hI.spares (.story (.load e)) trivial) _ habandoned
  | ok loaded =>
    obtain ⟨shelved, repertoire⟩ := loaded
    dsimp only
    cases hfirst : shelved.script.scenes.head? with
    | none =>
      obtain ⟨hempty, hE⟩ := hI.empty _ id shelved repertoire habandoned hload hfirst
      exact Keeps.throw hE _ hempty
    | some scene =>
      have hbegun := hI.begin _ id shelved repertoire scene hid habandoned hload hfirst
      exact Keeps.pure () _ hbegun

theorem press_keeps (awaiting : Bool) : Keeps I E (press awaiting) := by
  intro p hp
  rw [press, outcome_bind_of_ok (outcome_get p)]
  cases hstage : p.stage with
  | none => exact Keeps.pure awaiting p hp
  | some stage => exact Keeps.pure _ _ (hI.press p stage awaiting hp hstage)

theorem pressThrough_keeps : Keeps I E (pressThrough (α := α)) := by
  refine Keeps.get_bind fun p _ => Keeps.bind (press_keeps hI _) fun goesOn => ?_
  split
  · exact signalStory_keeps hI.advance
  · exact Keeps.pure _

theorem register_keeps (reaction : Nat → Command → Play α Unit) (id : ScriptId) (text : String) :
    Keeps I E (perform reaction (.register id text)) := by
  rw [perform]
  cases hcompile : Script.compile text none with
  | error e => exact Keeps.throw (hI.spares _ trivial)
  | ok script =>
    intro p hp
    dsimp only
    rw [outcome_bind_of_ok (outcome_get p)]
    cases hregister : p.repertoire.register id script with
    | error e => exact Keeps.throw (hI.spares (.compile e) trivial) p hp
    | ok repertoire =>
      exact Keeps.pure _ _ (hI.register p id text script repertoire hp hcompile hregister)

/-- Every allowed operation keeps an invariant if the story can go on and publish what it may. -/
theorem perform_keeps {reaction : Nat → Command → Play α Unit}
    (htick : Keeps I E (tick (publish reaction)))
    (hpublish : ∀ c, allowed (.publish c) → Keeps I E (publish reaction c)) {cue : Cue α}
    (hcue : allowed cue) : Keeps I E (perform reaction cue) := by
  have hanswer {β : Type} {a : Play α β} (ha : Keeps I E a) (f : β → CueAnswer) :
      Keeps I E (a >>= fun x => pure (f x)) := Keeps.bind ha fun _ => Keeps.pure _
  cases cue with
  | start id => exact hanswer (start_keeps hI hcue) _
  | tick => exact hanswer htick _
  | countTick => exact hanswer htick _
  | advance => exact hanswer (signalStory_keeps hI.advance) _
  | complete command =>
    refine hanswer (signalStory_keeps (f := (·.effectCompleted command)) fun p hp => ?_) _
    exact hI.hear p (.completed command) hp
  | unresolved command reason =>
    exact hanswer (Keeps.change fun p hp => hI.hear p (.unresolved command reason) hp) _
  | signal signal => exact hanswer (Keeps.change fun p hp => hI.hear p signal hp) _
  | register id text => exact register_keeps hI reaction id text
  | write path node =>
    refine hanswer (Keeps.change fun p hp => ?_) _
    exact hI.of_eq p _ hp rfl rfl rfl rfl rfl
  | setVariable name value =>
    exact hanswer (Keeps.change fun p hp => hI.setVariable p name value hcue hp) _
  | eraseVariable name =>
    refine Keeps.get_bind fun _ _ => hanswer (Keeps.change fun p hp => ?_) _
    exact hI.eraseVariable p name hcue hp
  | drain =>
    intro p hp
    have hdrained : I { p with bus := p.bus.drain.2 } := hI.of_eq p _ hp rfl rfl rfl rfl rfl
    exact Keeps.pure _ _ hdrained
  | subscribe s respond =>
    exact hanswer (Keeps.change fun p hp => hI.subscribe p s respond hcue hp) _
  | publish c => exact hanswer (hpublish c hcue) _
  | update dt => exact hanswer (hI.update dt (.inl hcue)) _
  | frame dt => exact Keeps.bind (hI.update dt (.inr hcue)) fun _ => hanswer htick _
  | press awaiting => exact hanswer (press_keeps hI awaiting) _
  | pressThrough => exact hanswer (pressThrough_keeps hI) _
  | sprite name emotion outfit => exact hanswer (character_keeps hI name) _

end Invariant

/-! ### Steps and deliveries -/

section Lasting

variable (hI : Lasting allowed E I)

include hI

/-- A run of steps. Whatever `deliver` does in the middle of it, each step finds the invariant at
    its beginning. -/
theorem steps_keeps {deliver : Command → Play α Unit} (hdeliver : ∀ c, Keeps I E (deliver c))
    (number count : Nat) : Keeps I E (steps deliver number count) := by
  induction count with
  | zero => exact Keeps.pure []
  | succ count ih =>
    intro p hp
    by_cases hready : ∃ c, p.story.cursor = some c ∧ c.number = number ∧ c.wait = .ready
    · obtain ⟨c, hc, rfl, hready⟩ := hready
      obtain ⟨hstepped, hfails⟩ := hI.step p c hp hc hready
      rw [outcome_steps_of_ready hc hready]
      cases houtcome : (p.story.step c).1 with
      | error e => exact Keeps.throw (hfails e houtcome) _ hstepped
      | ok handed =>
        cases handed with
        | none => exact Keeps.pure [] _ hstepped
        | some command =>
          refine Keeps.bind (hdeliver command) (fun _ => ?_) _ hstepped
          exact Keeps.bind ih fun _ => Keeps.pure _
    · rw [outcome_steps_of_not_ready fun c hc h => hready ⟨c, hc, h⟩]
      exact Keeps.pure [] p hp

theorem tick_keeps {deliver : Command → Play α Unit} (hdeliver : ∀ c, Keeps I E (deliver c)) :
    Keeps I E (tick deliver) := by
  refine Keeps.get_bind fun p _ => ?_
  dsimp only
  split
  · exact Keeps.pure []
  · exact steps_keeps hI hdeliver _ _

variable {reaction : Nat → Command → Play α Unit}

theorem publish_keeps (hreaction : ∀ number c, Keeps I E (reaction number c)) (c : Command) :
    Keeps I E (publish reaction c) := by
  intro p hp
  have hread : (return (← get).bus : Play α (Bus Subscriber)).outcome p = (.ok p.bus, p) := rfl
  rw [publish, Bus.publish, outcome_bind_of_ok hread]
  split
  · exact Keeps.pure () _ (hI.of_eq p _ hp rfl rfl rfl rfl rfl)
  · refine Keeps.forM (fun subscriber _ => ?_) p hp
    cases subscriber with
    | stage => exact hI.handle c
    | handler number => exact hreaction number c

theorem cue_keeps (hreaction : ∀ number c, Keeps I E (reaction number c)) {cue : Cue α}
    (hcue : allowed cue) : Keeps I E (perform reaction cue) :=
  perform_keeps hI.toInvariant (tick_keeps hI (publish_keeps hI hreaction))
    (fun c _ => publish_keeps hI hreaction c) hcue

/-- What handlers do, by induction on how deep deliveries nest: their cues are operations whose own
    deliveries nest less deep. -/
theorem react_keeps (depth number : Nat) (c : Command) : Keeps I E (react depth number c) := by
  induction depth generalizing number c with
  | zero => exact Keeps.throw (hI.spares _ trivial)
  | succ depth ih =>
    refine Keeps.get_bind fun p hp => ?_
    split
    · exact Keeps.pure ()
    · next handler hhandler =>
      have hgives := hI.gives p number handler hp hhandler
      split
      · exact Keeps.pure ()
      · next cues hcues =>
        refine Keeps.bind (Keeps.change fun q hq => ?_) fun _ => Keeps.forM fun cue hcue => ?_
        · exact hI.of_eq _ _ (hI.notice q number hq) rfl rfl rfl rfl rfl
        · refine Keeps.bind (cue_keeps hI ih (hgives _ _ cues hcues cue hcue)) fun _ => ?_
          exact Keeps.change fun q hq => hI.of_eq q _ hq rfl rfl rfl rfl rfl

end Lasting

end Play

namespace Performance

variable [Scalar α] {allowed : Cue α → Prop} {E : PlayError → Prop} {I : Performance α → Prop}
  {p : Performance α}

/-- What every allowed operation keeps holds after a run of them. -/
theorem after_keeps {depth : Nat}
    (h : ∀ cue, allowed cue → Keeps I E (Play.perform (Play.react depth) cue)) (hp : I p)
    {cues : List (Cue α)} (hcues : ∀ cue ∈ cues, allowed cue) : I (p.after depth cues) := by
  induction cues generalizing p with
  | nil => exact hp
  | cons cue rest ih =>
    obtain ⟨hcue, hrest⟩ := List.forall_mem_cons.1 hcues
    exact ih (h cue hcue p hp).1 hrest

theorem Lasting.after (hI : Lasting allowed E I) (hp : I p) (depth : Nat) {cues : List (Cue α)}
    (hcues : ∀ cue ∈ cues, allowed cue) : I (p.after depth cues) :=
  after_keeps (fun _ hcue => Play.cue_keeps hI (Play.react_keeps hI depth) hcue) hp hcues

end Performance

end VisualNovel

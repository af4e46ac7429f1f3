import VisualNovel.Proofs.Stage.Handling
import VisualNovel.Proofs.Stage.Still
import VisualNovel.Proofs.Table

/-!
How a stage on which no effect runs answers a command. It begins an effect for a command that takes
time, or it reports the command, and in no other case is there anything left to wait for. What time
did to the stage has no influence on the answer: stages that differ only in that give the same one.
-/

namespace VisualNovel

open Act

/-! ### Two stages abreast -/

/-- Two stages at work on which no effect runs and which differ only in what time did to them. They
    have given these signals, and the box of the first one is as it was before. -/
structure Abreast (s : Stage Float) (signals : List Signal) (u v : StageRun Float) : Prop where
  still_eq : u.stage.still = v.stage.still
  left_running : u.stage.animator.running = []
  right_running : v.stage.animator.running = []
  left_signals : u.signals = signals
  right_signals : v.signals = signals
  box : u.stage.box = s.box

namespace Abreast

variable {s : Stage Float} {signals : List Signal} {u v : StageRun Float}

theorem cast_eq (h : Abreast s signals u v) : u.stage.cast = v.stage.cast :=
  congrArg (·.cast) h.still_eq

theorem effects_eq (h : Abreast s signals u v) : u.stage.effects = v.stage.effects :=
  congrArg (·.effects) h.still_eq

theorem actors_eq (h : Abreast s signals u v) : u.stage.actors = v.stage.actors :=
  congrArg (·.actors) h.still_eq

theorem nextNumber_eq (h : Abreast s signals u v) : u.stage.nextNumber = v.stage.nextNumber :=
  congrArg (·.nextNumber) h.still_eq

/-- An animation is on both stages or on none, and there it differs only in how long it has run. -/
theorem animation (h : Abreast s signals u v) (name : String) :
    (u.stage.animations.get? name = none ∧ v.stage.animations.get? name = none) ∨
      ∃ a elapsed, u.stage.animations.get? name = some a ∧
        v.stage.animations.get? name = some { a with elapsed := elapsed } := by
  have hstill : (u.stage.animations.get? name).map Animated.still =
      (v.stage.animations.get? name).map Animated.still := by
    rw [← Table.get?_map, ← Table.get?_map]
    exact congrArg (fun r : Stage Float => r.animations.get? name) h.still_eq
  cases hu : u.stage.animations.get? name with
  | none =>
    rw [hu, Option.map_none, eq_comm, Option.map_eq_none_iff] at hstill
    exact .inl ⟨rfl, hstill⟩
  | some a =>
    rw [hu, Option.map_some, eq_comm, Option.map_eq_some_iff] at hstill
    obtain ⟨b, hb, hsame⟩ := hstill
    refine .inr ⟨a, b.elapsed, rfl, ?_⟩
    rw [hb]
    have hback : b = { b.still with elapsed := b.elapsed } := rfl
    rw [hback, hsame]
    rfl

/-- A change that has nothing to do with time keeps stages abreast. -/
theorem change (h : Abreast s signals u v) {f : Stage Float → Stage Float}
    (hstill : ∀ r, (f r).still = f r.still) (hanimator : ∀ r, (f r).animator = r.animator)
    (hbox : ∀ r, (f r).box = r.box) :
    Abreast s signals { u with stage := f u.stage } { v with stage := f v.stage } := by
  refine ⟨?_, ?_, ?_, h.left_signals, h.right_signals, (hbox _).trans h.box⟩
  · rw [hstill, hstill, h.still_eq]
  · rw [hanimator, h.left_running]
  · rw [hanimator, h.right_running]

/-- A report keeps stages abreast. -/
theorem signal (h : Abreast s signals u v) (x : Signal) :
    Abreast s (signals ++ [x]) { u with signals := u.signals ++ [x] }
      { v with signals := v.signals ++ [x] } := by
  refine ⟨h.still_eq, h.left_running, h.right_running, ?_, ?_, h.box⟩
  · rw [h.left_signals]
  · rw [h.right_signals]

/-- Where no effect runs there is none to cancel. -/
theorem cancel (h : Abreast s signals u v) (number : Nat) :
    Abreast s signals (StageAct.host.modify (Animator.cancel number) u)
      (StageAct.host.modify (Animator.cancel number) v) := by
  refine ⟨h.still_eq, ?_, ?_, h.left_signals, h.right_signals, h.box⟩
  · show u.stage.animator.running.filter _ = []
    rw [h.left_running, List.filter_nil]
  · show v.stage.animator.running.filter _ = []
    rw [h.right_running, List.filter_nil]

end Abreast

/-- How two stages that were abreast have answered a command: the same way. Everything that they
    signalled is a report of this command. Either no effect runs, and a command that takes time was
    reported, or the command takes time, nothing was signalled, and the same effect runs on both,
    which owes the command its acknowledgement. -/
structure Command.Answered (c : Command) (s : Stage Float) (u v : StageRun Float) : Prop where
  still_eq : u.stage.still = v.stage.still
  signals_eq : u.signals = v.signals
  reported : ∀ signal ∈ u.signals, ∃ reason, signal = .unresolved c.id reason
  box : c.subsystem ≠ .dialogue → u.stage.box = s.box
  shown : c.subsystem = .dialogue →
    ∃ params speaker text, u.stage.box.line = some (.start params speaker text)
  effects : (u.stage.OwesOnly none ∧ v.stage.OwesOnly none ∧ (c.durational → u.signals ≠ [])) ∨
    c.durational ∧ u.signals = [] ∧ u.stage.OwesOnly (some c.id) ∧
      u.stage.animator.unfinished = v.stage.animator.unfinished ∧ v.stage.OwesOnly (some c.id)

/-- Once their effects are over the two stages are the same but for the time that passed on them. -/
theorem Command.Answered.settled_eq {c : Command} {s : Stage Float} {u v : StageRun Float}
    (h : c.Answered s u v) : u.stage.settled = v.stage.settled := by
  have hunfinished : u.stage.animator.unfinished = v.stage.animator.unfinished := by
    rcases h.effects with ⟨hu, hv, -⟩ | ⟨-, -, -, hsame, -⟩
    · rw [Stage.unfinished_of_running_eq_nil hu, Stage.unfinished_of_running_eq_nil hv]
    · exact hsame
  rw [Stage.settled, Stage.settled, hunfinished, h.still_eq]

/-- An answer that begins no effect. -/
theorem Abreast.answered {c : Command} {s : Stage Float} {signals : List Signal}
    {u v : StageRun Float} (h : Abreast s signals u v) (hc : c.subsystem ≠ .dialogue)
    (hreported : ∀ signal ∈ signals, ∃ reason, signal = .unresolved c.id reason)
    (hdurational : c.durational → signals ≠ []) : c.Answered s u v := by
  refine ⟨h.still_eq, ?_, ?_, fun _ => h.box, fun hdialogue => absurd hdialogue hc, .inl ?_⟩
  · rw [h.left_signals, h.right_signals]
  · exact h.left_signals ▸ hreported
  · exact ⟨h.left_running, h.right_running, h.left_signals ▸ hdurational⟩

namespace StageAct

variable {c : Command} {s : Stage Float} {signals : List Signal} {u v : StageRun Float}

/-- Where no effect runs, one that begins supersedes nothing. -/
theorem tween_alone {run : StageRun Float} (h : run.stage.animator.running = []) {number : Nat}
    {slot : Slot} {start finish : TweenValue Float} {duration : Float} {ease : Ease}
    {ack : Acknowledgement} {new : Effect}
    (hnew : new = ⟨number, slot, start, finish, duration, ease, Scalar.zero, some ack, false⟩) :
    (tween number slot start finish duration ease ack).outcome run =
      (.ok (), { run with
        stage := { run.stage with
          animator := ⟨run.stage.animator.pool.push new, [run.stage.animator.pool.size]⟩ } }) := by
  obtain ⟨stage, signals⟩ := run
  obtain ⟨cast, effects, ⟨pool, running⟩, box⟩ := stage
  cases h
  rw [hnew]
  rfl

theorem owesOnly_of_tween_alone (pool : Array Effect) {new : Effect} {command : Int}
    (hdone : new.isDone = false) (hmixes : new.Mixes) (hcommand : Effect.command? new = some command)
    (stage : Stage Float) :
    Stage.OwesOnly { stage with animator := ⟨pool.push new, [pool.size]⟩ } (some command) ∧
      Animator.unfinished (⟨pool.push new, [pool.size]⟩ : Animator Nat Slot Acknowledgement Float) =
        [new] := by
  have htween : (pool.push new)[pool.size]? = some new := by simp
  refine ⟨⟨pool.size, new, rfl, htween, hdone, hmixes, hcommand⟩, ?_⟩
  exact Stage.unfinished_of_running_eq_singleton
    (s := { stage with animator := ⟨pool.push new, [pool.size]⟩ }) rfl htween hdone

/-- An effect begins on two stages abreast. -/
theorem tween_both (h : Abreast s [] u v) (hc : c.subsystem ≠ .dialogue) (hdurational : c.durational)
    {number : Nat} {slot : Slot} {start finish : TweenValue Float} {duration : Float} {ease : Ease}
    {leaving : Option Leaving}
    (hmixes : Tween.Mixes (⟨number, slot, start, finish, duration, ease, Scalar.zero,
      some ⟨leaving, c.id⟩, false⟩ : Effect)) :
    EndBoth (tween number slot start finish duration ease ⟨leaving, c.id⟩) u
      (tween number slot start finish duration ease ⟨leaving, c.id⟩) v
      fun _ u' v' => c.Answered s u' v' := by
  obtain ⟨new, hnew⟩ : ∃ new : Effect, new = ⟨number, slot, start, finish, duration, ease,
      Scalar.zero, some ⟨leaving, c.id⟩, false⟩ := ⟨_, rfl⟩
  have hdone : new.isDone = false := by rw [hnew]
  have hcommand : Effect.command? new = some c.id := by
    rw [hnew]
    rfl
  refine ⟨(), _, _, tween_alone h.left_running hnew, tween_alone h.right_running hnew, ?_⟩
  have hleft := owesOnly_of_tween_alone u.stage.animator.pool hdone (hnew ▸ hmixes)
    hcommand u.stage
  have hright := owesOnly_of_tween_alone v.stage.animator.pool hdone (hnew ▸ hmixes)
    hcommand v.stage
  refine ⟨h.still_eq, ?_, ?_, fun _ => h.box, fun hdialogue => absurd hdialogue hc, .inr ?_⟩
  · exact h.left_signals.trans h.right_signals.symm
  · intro signal hsignal
    change signal ∈ u.signals at hsignal
    rw [h.left_signals] at hsignal
    cases hsignal
  · exact ⟨hdurational, h.left_signals, hleft.1, hleft.2.trans hright.2.symm, hright.1⟩

/-- A command that is reported, and nothing else is done about it. -/
theorem report_both (h : Abreast s [] u v) (hc : c.subsystem ≠ .dialogue) (reason : String) :
    EndBoth (signal (.unresolved c.id reason)) u (signal (.unresolved c.id reason)) v
      fun _ u' v' => c.Answered s u' v' := by
  refine EndBoth.change ((h.signal _).answered hc (fun x hx => ⟨reason, ?_⟩) fun _ => by simp)
  exact List.mem_singleton.1 hx

/-- What was looked for: there, and nothing signalled, or its absence is reported. -/
def Sought (c : Command) (s : Stage Float) (u v : StageRun Float) {β : Type} : Option β → Prop
  | some _ => Abreast s [] u v
  | none => ∃ reason, Abreast s [.unresolved c.id reason] u v

theorem Sought.answered {β : Type} (h : Sought c s u v (none : Option β))
    (hc : c.subsystem ≠ .dialogue) : c.Answered s u v := by
  obtain ⟨reason, habreast⟩ := h
  exact habreast.answered hc (fun x hx => ⟨reason, List.mem_singleton.1 hx⟩) fun _ => by simp

theorem calledCharacter_both (h : Abreast s [] u v) :
    EndBoth (calledCharacter c) u (calledCharacter c) v fun character? u' v' =>
      Sought c s u' v' character? := by
  refine EndBoth.view_bind ?_
  rw [h.cast_eq]
  split
  · exact EndBoth.pure h
  · exact EndBoth.change_bind (EndBoth.pure ⟨_, h.signal _⟩)

/-- The next number is the same on both. -/
theorem fresh_both (h : Abreast s signals u v) :
    EndBoth fresh u fresh v fun _ u' v' => Abreast s signals u' v' := by
  refine EndBoth.view_bind ?_
  rw [h.nextNumber_eq]
  refine EndBoth.change_bind (EndBoth.pure ?_)
  exact h.change (f := fun s => { s with nextNumber := v.stage.nextNumber + 1 }) (fun _ => rfl)
    (fun _ => rfl) fun _ => rfl

theorem enter_both (h : Abreast s [] u v) (hc : c.Directs Placement.isPlace)
    (character : Character) (alpha : Float) :
    EndBoth (enter c character alpha) u (enter c character alpha) v fun number? u' v' =>
      Sought c s u' v' number? := by
  obtain ⟨place, hplace⟩ := startPlace_eq_ok hc
  have hrest (u v : StageRun Float) (h : Abreast s [] u v) (actor : Nat → Position → Actor Float) :
      let rest : StageAct Float (Option Nat) := do
        let place ← startPlace c.params
        let number ← fresh
        change fun s => { s with actors := s.actors.put character.name (actor number place) }
        return some number
      EndBoth rest u rest v fun number? u' v' => Sought c s u' v' number? := by
    refine EndBoth.lift_bind hplace ((fresh_both h).then_bind fun number u' v' h' => ?_)
    refine EndBoth.change_bind (EndBoth.pure ?_)
    exact h'.change (f := fun s =>
      { s with actors := s.actors.put character.name (actor number place) }) (fun _ => rfl)
      (fun _ => rfl) fun _ => rfl
  unfold enter
  dsimp only
  split
  · exact EndBoth.change_bind (EndBoth.pure ⟨_, h.signal _⟩)
  · refine EndBoth.view_bind ?_
    rw [h.actors_eq]
    split
    · exact EndBoth.change_bind (hrest _ _ (h.cancel _) _)
    · exact hrest _ _ h _

theorem direct_both (h : Abreast s [] u v) (hc : c.Directs Placement.isPlace)
    (hsubsystem : c.subsystem ≠ .dialogue)
    (hdurational : c.durational ↔ c.verb = "fade" ∨ c.verb = "move") (name : String)
    (actor : Actor Float) :
    EndBoth (direct c name actor) u (direct c name actor) v fun _ u' v' => c.Answered s u' v' := by
  unfold direct
  split
  · next hverb =>
    have hnot : ¬ c.durational := fun hd => by
      rcases hdurational.1 hd with hd | hd <;> simp [hd] at hverb
    refine EndBoth.change_bind (EndBoth.change ?_)
    have hcancelled := (h.cancel actor.number).change
      (f := fun s => { s with actors := s.actors.erase name }) (fun _ => rfl) (fun _ => rfl)
      fun _ => rfl
    exact hcancelled.answered hsubsystem (by simp) fun hd => absurd hd hnot
  split
  · next hfade =>
    refine EndBoth.view_bind ?_
    rw [h.effects_eq]
    exact tween_both h hsubsystem (hdurational.2 (.inl (by simpa using hfade))) True.intro
  split
  · next hmove =>
    have hverb : c.verb = "move" := by simpa using hmove
    obtain ⟨place, hplace⟩ := targetPlace_eq_ok hc hverb
    refine EndBoth.lift_bind hplace (EndBoth.view_bind ?_)
    rw [h.effects_eq]
    exact tween_both h hsubsystem (hdurational.2 (.inr hverb)) True.intro
  split
  · next hlook =>
    obtain ⟨facing, hfacing⟩ := hc.facing (by simpa using hlook)
    have hnot : ¬ c.durational := fun hd => by
      rcases hdurational.1 hd with hd | hd <;> simp [hd] at hlook
    refine EndBoth.lift_bind (need_of_eq_some hfacing) (EndBoth.change ?_)
    have hturned := h.change (f := fun s => { s with
      actors := s.actors.change name fun a => { a with facing } }) (fun _ => rfl) (fun _ => rfl)
      fun _ => rfl
    exact hturned.answered hsubsystem (by simp) fun hd => absurd hd hnot
  · exact report_both h hsubsystem _

theorem verb_of_fadesIn (h : fadesIn c = .ok true) : c.verb = "fade" := by
  unfold fadesIn at h
  split at h
  · next hfade => simpa using hfade
  · cases h

theorem onActor_both (h : Abreast s [] u v) (hc : c.Directs Placement.isPlace)
    (hsubsystem : c.subsystem ≠ .dialogue)
    (hdurational : c.durational ↔ c.verb = "fade" ∨ c.verb = "move") :
    EndBoth (onActor c) u (onActor c) v fun _ u' v' => c.Answered s u' v' := by
  unfold onActor
  dsimp only
  split
  · next happear =>
    have hnot : ¬ c.durational := fun hd => by
      rcases hdurational.1 hd with hd | hd <;> simp [hd] at happear
    refine (calledCharacter_both h).then_bind fun character? u' v' hsought => ?_
    cases character? with
    | none => exact EndBoth.pure (hsought.answered hsubsystem)
    | some character =>
      refine EndBoth.discard ((enter_both hsought hc character Scalar.one).mono ?_)
      intro number? u'' v'' hentered
      cases number? with
      | none => exact hentered.answered hsubsystem
      | some number =>
        exact Abreast.answered hentered hsubsystem (by simp) fun hd => absurd hd hnot
  · obtain ⟨fading, hfading⟩ := fadesIn_eq_ok hc
    refine EndBoth.lift_bind hfading ?_
    split
    · next hfades =>
      have hverb := verb_of_fadesIn (hfading.trans (congrArg Except.ok hfades))
      refine (calledCharacter_both h).then_bind fun character? u' v' hsought => ?_
      cases character? with
      | none => exact EndBoth.pure (hsought.answered hsubsystem)
      | some character =>
        refine (enter_both hsought hc character Scalar.zero).then_bind ?_
        intro number? u'' v'' hentered
        cases number? with
        | none => exact EndBoth.pure (hentered.answered hsubsystem)
        | some number =>
          refine EndBoth.view_bind ?_
          rw [Abreast.effects_eq hentered]
          exact tween_both hentered hsubsystem (hdurational.2 (.inl hverb)) True.intro
    · refine EndBoth.view_bind ?_
      rw [h.actors_eq]
      split
      · exact report_both h hsubsystem _
      · exact direct_both h hc hsubsystem hdurational _ _

/-- An animation comes on stage; what it takes over from the one before is the same on both. -/
theorem stageAnimation_both (h : Abreast s [] u v)
    (hc : c.Directs fun placement => ¬ placement.isPlace) (name : String) (sheet : SpriteSheet)
    (alpha : Float) :
    EndBoth (stageAnimation c name sheet alpha) u (stageAnimation c name sheet alpha) v
      fun _ u' v' => Abreast s [] u' v' := by
  have hrest (position : List Float) (scale : Float) (layer : Int) :
      let rest : StageAct Float Nat := do
        let number ← fresh
        change fun s => { s with
          animations := s.animations.put name
            { number, sheet, position, scale, layer, alpha, elapsed := Scalar.zero } }
        return number
      EndBoth rest u rest v fun _ u' v' => Abreast s [] u' v' := by
    refine (fresh_both h).then_bind fun number u' v' h' => EndBoth.change_bind (EndBoth.pure ?_)
    refine h'.change (f := fun s => { s with
      animations := s.animations.put name
        { number, sheet, position, scale, layer, alpha, elapsed := Scalar.zero } }) (fun r => ?_)
      (fun _ => rfl) fun _ => rfl
    unfold Stage.still
    simp only [Table.map_put]
    rfl
  unfold stageAnimation
  refine EndBoth.view_bind ?_
  dsimp only
  have hprevious := h.animation name
  generalize u.stage.animations.get? name = previous at hprevious ⊢
  generalize v.stage.animations.get? name = previous' at hprevious ⊢
  split
  · next placement hposition =>
    cases placement with
    | place place => exact (hc.admitted _ hposition True.intro).elim
    | coords xs =>
      rcases hprevious with ⟨rfl, rfl⟩ | ⟨a, elapsed, rfl, rfl⟩
      · exact EndBoth.lift_bind rfl (hrest _ _ _)
      · cases c.params.scale <;> exact EndBoth.lift_bind rfl (hrest _ _ _)
  · rcases hprevious with ⟨rfl, rfl⟩ | ⟨a, elapsed, rfl, rfl⟩
    · exact EndBoth.bind (EndBoth.pure (hrest _ _ _))
    · cases c.params.scale <;> exact EndBoth.bind (EndBoth.pure (hrest _ _ _))

theorem directAnimation_both (h : Abreast s [] u v)
    (hc : c.Directs fun placement => ¬ placement.isPlace) (hsubsystem : c.subsystem ≠ .dialogue)
    (hdurational : c.durational ↔ c.verb = "fade" ∨ c.verb = "move") (name : String)
    (a : Animated Float) :
    EndBoth (directAnimation c name a) u (directAnimation c name a) v
      fun _ u' v' => c.Answered s u' v' := by
  unfold directAnimation
  split
  · next hfade =>
    refine EndBoth.view_bind ?_
    rw [h.effects_eq]
    exact tween_both h hsubsystem (hdurational.2 (.inl (by simpa using hfade))) True.intro
  split
  · next hmove =>
    have hverb : c.verb = "move" := by simpa using hmove
    obtain ⟨placement, hposition⟩ := hc.position hverb
    refine EndBoth.lift_bind (need_of_eq_some hposition) ?_
    cases placement with
    | place place => exact (hc.admitted _ hposition True.intro).elim
    | coords xs =>
      refine EndBoth.lift_bind rfl (EndBoth.view_bind ?_)
      rw [h.effects_eq]
      exact tween_both h hsubsystem (hdurational.2 (.inr hverb)) True.intro
  split
  · next hlook =>
    obtain ⟨facing, hfacing⟩ := hc.facing (by simpa using hlook)
    have hnot : ¬ c.durational := fun hd => by
      rcases hdurational.1 hd with hd | hd <;> simp [hd] at hlook
    refine EndBoth.lift_bind (need_of_eq_some hfacing) (EndBoth.change ?_)
    have hturned := h.change (f := fun s => { s with
      animations := s.animations.change name fun a => { a with facing } }) (fun r => ?_)
      (fun _ => rfl) fun _ => rfl
    · exact hturned.answered hsubsystem (by simp) fun hd => absurd hd hnot
    · unfold Stage.still Table.change
      simp only [List.map_map, Stage.mk.injEq, true_and, and_true]
      refine List.map_congr_left fun (key, b) _ => ?_
      dsimp only [Function.comp_apply]
      split <;> rfl
  · exact report_both h hsubsystem _

theorem onAnimation_both (h : Abreast s [] u v)
    (hc : c.Directs fun placement => ¬ placement.isPlace) (hsubsystem : c.subsystem ≠ .dialogue)
    (hdurational : c.durational ↔ c.verb = "fade" ∨ c.verb = "move") :
    EndBoth (onAnimation c) u (onAnimation c) v fun _ u' v' => c.Answered s u' v' := by
  obtain ⟨fading, hfading⟩ := fadesIn_eq_ok hc
  refine EndBoth.lift_bind hfading ?_
  split
  · next happear =>
    refine EndBoth.view_bind ?_
    rw [h.cast_eq]
    split
    · exact report_both h hsubsystem _
    · refine (stageAnimation_both h hc _ _ _).then_bind fun number u' v' h' => ?_
      cases fading with
      | true =>
        have hverb := verb_of_fadesIn hfading
        refine EndBoth.view_bind ?_
        rw [h'.effects_eq]
        exact tween_both h' hsubsystem (hdurational.2 (.inl hverb)) True.intro
      | false =>
        refine EndBoth.pure (h'.answered hsubsystem (by simp) fun hd => ?_)
        rcases hdurational.1 hd with hd | hd <;> simp [hd] at happear
  · refine EndBoth.view_bind ?_
    rcases h.animation (c.target.getD "") with ⟨hu, hv⟩ | ⟨a, elapsed, hu, hv⟩
    · rw [hu, hv]
      exact report_both h hsubsystem _
    · rw [hu, hv]
      exact directAnimation_both h hc hsubsystem hdurational _ a

/-- The speaker's emotion changes, or it is reported why it does not. -/
theorem changeEmotion_both (h : Abreast s [] u v) (emotion : String) :
    EndBoth (changeEmotion c emotion) u (changeEmotion c emotion) v fun _ u' v' =>
      ∃ signals, Abreast s signals u' v' ∧
        ∀ signal ∈ signals, ∃ reason, signal = .unresolved c.id reason := by
  refine EndBoth.view_bind ?_
  rw [h.actors_eq]
  split
  · exact EndBoth.change ⟨_, h.signal _, fun x hx => ⟨_, List.mem_singleton.1 hx⟩⟩
  · split
    · refine EndBoth.change ⟨[], ?_, by simp⟩
      exact h.change (f := fun s => { s with
        actors := s.actors.change (c.target.getD "") fun a => { a with emotion } }) (fun _ => rfl)
        (fun _ => rfl) fun _ => rfl
    · exact EndBoth.change ⟨_, h.signal _, fun x hx => ⟨_, List.mem_singleton.1 hx⟩⟩

theorem onDialogue_both (h : Abreast s [] u v) (hsubsystem : c.subsystem = .dialogue)
    (hspeaker : c.params.speaker ≠ none) (hnarrator : c.params.narrator ≠ none)
    (htext : c.params.text ≠ none) (hc : ¬ c.durational) :
    EndBoth (onDialogue c) u (onDialogue c) v fun _ u' v' => c.Answered s u' v' := by
  obtain ⟨speaker, hspeaker⟩ := Option.ne_none_iff_exists'.1 hspeaker
  obtain ⟨narrating, hnarrator⟩ := Option.ne_none_iff_exists'.1 hnarrator
  obtain ⟨text, htext⟩ := Option.ne_none_iff_exists'.1 htext
  have hrest (u v : StageRun Float) {signals : List Signal} (h : Abreast s signals u v)
      (hreported : ∀ signal ∈ signals, ∃ reason, signal = .unresolved c.id reason) :
      let rest : StageAct Float Unit := do
        let narrating ← need "narrator" c.params.narrator
        change fun s => { s with narrating }
        let text ← need "text" c.params.text
        change fun s => { s with box := s.box.show speaker text }
      EndBoth rest u rest v fun _ u' v' => c.Answered s u' v' := by
    refine EndBoth.lift_bind (need_of_eq_some hnarrator) (EndBoth.change_bind ?_)
    refine EndBoth.lift_bind (need_of_eq_some htext) (EndBoth.change ?_)
    have hnarrated := h.change (f := fun s => { s with narrating }) (fun _ => rfl) (fun _ => rfl)
      fun _ => rfl
    refine ⟨hnarrated.still_eq, h.left_signals.trans h.right_signals.symm, ?_,
      fun hnot => absurd hsubsystem hnot, fun _ => ⟨_, _, _, rfl⟩, .inl ?_⟩
    · exact h.left_signals.symm ▸ hreported
    · exact ⟨h.left_running, h.right_running, fun hd => absurd hd hc⟩
  refine EndBoth.lift_bind (need_of_eq_some hspeaker) ?_
  split
  · next emotion _ =>
    refine (changeEmotion_both h emotion).then_bind fun _ u' v' hchanged => ?_
    obtain ⟨signals, h', hreported⟩ := hchanged
    exact hrest u' v' h' hreported
  · exact hrest u v h (by simp)

/-- A plain change of the stage answers a command that takes no time. -/
theorem change_both (h : Abreast s [] u v) (hsubsystem : c.subsystem ≠ .dialogue)
    (hc : ¬ c.durational) {f : Stage Float → Stage Float} (hstill : ∀ r, (f r).still = f r.still)
    (hanimator : ∀ r, (f r).animator = r.animator) (hbox : ∀ r, (f r).box = r.box) :
    EndBoth (change f) u (change f) v fun _ u' v' => c.Answered s u' v' :=
  EndBoth.change ((h.change hstill hanimator hbox).answered hsubsystem (by simp) fun hd =>
    absurd hd hc)

/-- Stages on which no effect runs and which differ only in what time did to them answer every
    playable command, and in the same way. -/
theorem handle_both {s t : Stage Float} (hstill : s.still = t.still) (hs : s.OwesOnly none)
    (ht : t.OwesOnly none) (hc : c.Playable)
    (hdurational : c.durational ↔ c.verb = "fade" ∨ c.verb = "move") :
    EndBoth (handle c) { stage := s } (handle c) { stage := t } fun _ u v => c.Answered s u v := by
  have h : Abreast s [] { stage := s } { stage := t } := ⟨hstill, hs, ht, rfl, rfl, rfl⟩
  unfold Command.Playable at hc
  unfold handle
  cases hsubsystem : c.subsystem with
  | actor =>
    exact onActor_both h (by simpa [hsubsystem] using hc) (by simp [hsubsystem]) hdurational
  | animation =>
    exact onAnimation_both h (by simpa [hsubsystem] using hc) (by simp [hsubsystem]) hdurational
  | background =>
    rw [hsubsystem] at hc
    obtain ⟨id, hid⟩ := Option.ne_none_iff_exists'.1 hc.1
    refine EndBoth.lift_bind (need_of_eq_some hid) ?_
    exact change_both h (by simp [hsubsystem]) hc.2 (fun _ => rfl) (fun _ => rfl) fun _ => rfl
  | gui =>
    rw [hsubsystem] at hc
    obtain ⟨panel, hpanel⟩ := Option.ne_none_iff_exists'.1 hc.1
    obtain ⟨id, hid⟩ := Option.ne_none_iff_exists'.1 hc.2.1
    refine EndBoth.lift_bind (need_of_eq_some hpanel) ?_
    refine EndBoth.lift_bind (need_of_eq_some hid) ?_
    exact change_both h (by simp [hsubsystem]) hc.2.2 (fun _ => rfl) (fun _ => rfl) fun _ => rfl
  | dialogue =>
    rw [hsubsystem] at hc
    exact onDialogue_both h hsubsystem hc.1 hc.2.1 hc.2.2.1 hc.2.2.2
  | log =>
    rw [hsubsystem] at hc
    obtain ⟨text, htext⟩ := Option.ne_none_iff_exists'.1 hc.1
    refine EndBoth.lift_bind (need_of_eq_some htext) ?_
    exact change_both h (by simp [hsubsystem]) hc.2 (fun _ => rfl) (fun _ => rfl) fun _ => rfl
  | scene =>
    rw [hsubsystem] at hc
    obtain ⟨name, hname⟩ := Option.ne_none_iff_exists'.1 hc.1
    refine EndBoth.lift_bind (need_of_eq_some hname) ?_
    exact change_both h (by simp [hsubsystem]) hc.2 (fun _ => rfl) (fun _ => rfl) fun _ => rfl

end StageAct

end VisualNovel

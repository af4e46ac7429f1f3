import VisualNovel.Proofs.Stage.FadeOuts
import VisualNovel.Proofs.Stage.Handling

/-!
Reports. Whatever has happened on a stage, it carries out every command of a compiled script or
reports it, and never both. A report about somebody on stage comes before anything is done, so it
leaves the stage as it was; a line of dialogue is shown even if its speaker's emotion is reported.
-/

namespace VisualNovel

open Act

variable {α : Type}

/-! ### Reports -/

def Signal.isReport : Signal → Bool
  | .completed _ => false
  | .unresolved _ _ => true

/-- The reports that a stage at work has given, in order. -/
def StageRun.reports (run : StageRun α) : List Signal := run.signals.filter (·.isReport)

/-- A stage at work that has answered nothing and begun no tween. -/
structure Stage.Readied (s : Stage α) (run : StageRun α) : Prop where
  signals : run.signals = []
  pool : run.stage.animator.pool = s.animator.pool
  running : run.stage.animator.running.Sublist s.animator.running

namespace Stage.Readied

variable {s : Stage α} {run : StageRun α}

theorem refl (s : Stage α) : s.Readied { stage := s } := ⟨rfl, rfl, .refl _⟩

theorem of_animator_eq (h : s.Readied run) {run' : StageRun α}
    (hsignals : run'.signals = run.signals)
    (hanimator : run'.stage.animator = run.stage.animator) : s.Readied run' :=
  ⟨hsignals.trans h.signals, hanimator ▸ h.pool, hanimator ▸ h.running⟩

theorem sound (h : s.Readied run) (hs : s.animator.Sound) : run.stage.animator.Sound := by
  refine ⟨hs.nodup.sublist h.running, fun i hi => ?_⟩
  obtain ⟨tw, htw, hdone⟩ := hs.running i (h.running.subset hi)
  refine ⟨tw, ?_, hdone⟩
  rw [← htw, Animator.tween?, h.pool, Animator.tween?]

theorem reports_eq_nil (h : s.Readied run) : run.reports = [] := by
  rw [StageRun.reports, h.signals, List.filter_nil]

theorem cancel (h : s.Readied run) (number : Nat) :
    s.Readied (StageAct.host.modify (Animator.cancel number) run) :=
  ⟨h.signals, h.pool, List.filter_sublist.trans h.running⟩

end Stage.Readied

/-! ### Settling a command -/

/-- However long the tween has run, a command is acknowledged when it comes to its end. -/
def Stage.Acknowledges (command : Int) (tw : Tween Nat Slot Acknowledgement α) : Prop :=
  ∀ (run : StageRun α) i elapsed, run.stage.animator.tween? i = some { tw with elapsed } →
    Ends (StageAct.host.finish i) run fun _ run' =>
      run'.signals = run.signals ++ [.completed command]

/-- One tween was added to those that run on a stage, under a new number, and its end acknowledges
    a command. Of the others some may have stopped. -/
structure Stage.Begins (command : Int) (s s' : Stage α) : Prop where
  running : ∃ kept, kept.Sublist s.animator.running ∧
    s'.animator.running = kept ++ [s.animator.pool.size]
  acknowledges : ∃ tw, s'.animator.tween? s.animator.pool.size = some tw ∧ tw.isDone = false ∧
    Acknowledges command tw

/-- A stage that stays as it is begins no tween. -/
theorem Stage.not_begins_self {s : Stage α} (hs : s.animator.Sound) (command : Int) :
    ¬ s.Begins command s := by
  rintro ⟨⟨kept, -, hrunning⟩, -⟩
  have hmem : s.animator.pool.size ∈ s.animator.running := by
    rw [hrunning]
    exact List.mem_append_right _ List.mem_cons_self
  exact Nat.lt_irrefl _ (hs.lt_size hmem)

/-- How a stage settles a command. It is reported at most once, by its own id. If the report is
    about somebody on stage, the stage is as it was. A line of dialogue is in the box even then, and
    its report changes no actor. A command that takes time is reported, or a tween begins for it,
    but not both. -/
structure Command.Settled [Scalar α] (c : Command) (s : Stage α) (run : StageRun α) : Prop where
  reports : run.reports = [] ∨ ∃ reason, run.reports = [.unresolved c.id reason]
  untouched : c.subsystem = .actor ∨ c.subsystem = .animation → run.reports ≠ [] → run.stage = s
  shown : c.subsystem = .dialogue → ∃ speaker text, c.params.speaker = some speaker ∧
    c.params.text = some text ∧ run.stage.box = s.box.show speaker text
  unmoved : c.subsystem = .dialogue → run.reports ≠ [] → run.stage.actors = s.actors
  effect : c.durational → run.reports ≠ [] ∧ ¬ s.Begins c.id run.stage ∨
    run.reports = [] ∧ s.Begins c.id run.stage

/-- What becomes of a command that is no line of dialogue: it is reported and nothing else is done,
    or its effect begins, or nobody waits for it. -/
inductive Command.Dealt (c : Command) (s : Stage α) (run : StageRun α) : Prop where
  | reported (reason : String) (h : run = { stage := s, signals := [.unresolved c.id reason] })
  | begun (hreports : run.reports = []) (hbegins : s.Begins c.id run.stage)
  | done (hreports : run.reports = []) (hc : ¬ c.durational)

theorem Command.Dealt.settled [Scalar α] {c : Command} {s : Stage α} {run : StageRun α}
    (h : c.Dealt s run) (hs : s.animator.Sound) (hc : c.subsystem ≠ .dialogue) :
    c.Settled s run := by
  have hshown {P : Prop} (hdialogue : c.subsystem = .dialogue) : P := absurd hdialogue hc
  cases h with
  | reported reason h =>
    subst h
    refine ⟨.inr ⟨reason, rfl⟩, fun _ _ => rfl, hshown, hshown, fun _ => .inl ⟨?_, ?_⟩⟩
    · simp [StageRun.reports, Signal.isReport]
    · exact Stage.not_begins_self hs c.id
  | begun hreports hbegins =>
    exact ⟨.inl hreports, fun _ h => absurd hreports h, hshown, hshown,
      fun _ => .inr ⟨hreports, hbegins⟩⟩
  | done hreports hdurational =>
    exact ⟨.inl hreports, fun _ h => absurd hreports h, hshown, hshown,
      fun h => absurd h hdurational⟩

namespace Host

variable {σ ε ω τ κ ν : Type} {h : Host σ ε ω τ κ α} {log : σ → List ν} {note : κ → ν} {s : σ}

/-- A tween that begins runs behind those that are left of the ones that ran. -/
theorem add_running [BEq ω] [BEq τ] (hq : h.Quiet log note) {i : Nat} {new : Tween ω τ κ α}
    (hnew : (h.animator s).tween? i = some new) (ha : (h.animator s).Sound)
    (hi : i ∉ (h.animator s).running) :
    Ends (h.add i) s fun _ s' => (h.animator s').tween? i = some new ∧
      ∃ kept, kept.Sublist (h.animator s).running ∧ (h.animator s').running = kept ++ [i] := by
  refine Ends.get_bind ?_
  refine (supersede_ends hq hnew ha hi (by omega)).then_bind fun _ s' hs' => Ends.change ?_
  rw [List.drop_zero] at hs'
  rw [hq.animator_modify]
  refine ⟨?_, (h.animator s').sweep.running, ?_, rfl⟩
  · show (h.animator s').tween? i = _
    rw [hs'.tween?, if_neg hi, hnew]
  · rw [← hs'.running]
    exact List.filter_sublist

end Host

namespace StageAct

open Stage

variable {s : Stage α} {run : StageRun α} {c : Command}

/-! ### Parts of commands -/

theorem unresolved_dealt (reason : String) :
    Ends (signal (.unresolved c.id reason)) { stage := s } fun _ run' => c.Dealt s run' :=
  Ends.change (.reported reason rfl)

/-- A change that nobody waits for. -/
theorem change_dealt (hrun : s.Readied run) (hc : ¬ c.durational) (f : Stage α → Stage α) :
    Ends (change f) run fun _ run' => c.Dealt s run' :=
  Ends.change (.done hrun.reports_eq_nil hc)

/-- The character is found, or its absence is reported; the stage stays as it is. -/
theorem calledCharacter_dealt :
    Ends (calledCharacter c) { stage := s } fun character? run' =>
      (character? = none → c.Dealt s run') ∧ (character? ≠ none → run' = { stage := s }) := by
  refine Ends.view_bind ?_
  split
  · exact Ends.pure ⟨by simp, fun _ => rfl⟩
  · exact (unresolved_dealt _).then_bind fun _ run' h => Ends.pure ⟨fun _ => h, by simp⟩

theorem fresh_readied (hrun : s.Readied run) :
    Ends (fresh (α := α)) run fun _ run' => s.Readied run' :=
  Ends.view_bind (Ends.change_bind (Ends.pure (hrun.of_animator_eq rfl rfl)))

/-- The speaker's emotion changes, or it is reported why it does not. -/
theorem changeEmotion_settles (emotion : String) :
    Ends (changeEmotion c emotion) { stage := s } fun _ run' => run'.stage.box = s.box ∧
      (run'.signals = [] ∨
        ∃ reason, run' = { stage := s, signals := [.unresolved c.id reason] }) := by
  refine Ends.view_bind ?_
  split
  · exact Ends.change ⟨rfl, .inr ⟨_, rfl⟩⟩
  · split
    · exact Ends.change ⟨rfl, .inl rfl⟩
    · exact Ends.change ⟨rfl, .inr ⟨_, rfl⟩⟩

/-! ### Tweens that begin -/

/-- What tweens note when they are done is no report. -/
theorem filter_isReport_notes (tws : List (Tween Nat Slot Acknowledgement α)) :
    (tws.flatMap (Tween.notes fun ack => Signal.completed ack.command)).filter (·.isReport) =
      [] := by
  refine List.filter_eq_nil_iff.2 fun signal hsignal => ?_
  obtain ⟨tw, -, htw⟩ := List.mem_flatMap.1 hsignal
  unfold Tween.notes at htw
  split at htw
  · obtain ⟨ack, -, rfl⟩ := by simpa using htw
    simp [Signal.isReport]
  · cases htw

variable [Scalar α]

/-- The end of a tween acknowledges the command that it was made for. -/
theorem acknowledges {tw : Tween Nat Slot Acknowledgement α} {ack : Acknowledgement}
    (hack : tw.onDone = some ack) (hdone : tw.isDone = false) : Acknowledges ack.command tw := by
  intro run i elapsed htw
  refine (Host.finish_ends host_quiet htw hdone).mono fun _ run' hrun' => ?_
  rw [hrun'.log]
  show _ ++ ([i].filterMap run.stage.animator.tween?).flatMap _ = _
  simp [htw, Tween.notes, Tween.ended, hack]

theorem tween_dealt (hs : s.animator.Sound) (hrun : s.Readied run) {number : Nat} {slot : Slot}
    {start finish : TweenValue α} {duration : α} {ease : Ease} {leaving : Option Leaving} :
    Ends (tween number slot start finish duration ease ⟨leaving, c.id⟩) run fun _ run' =>
      c.Dealt s run' := by
  obtain ⟨new, hnew⟩ : ∃ new : Tween Nat Slot Acknowledgement α, new =
    ⟨number, slot, start, finish, duration, ease, Scalar.zero, some ⟨leaving, c.id⟩, false⟩ :=
      ⟨_, rfl⟩
  have hdone : new.isDone = false := by rw [hnew]
  have hack : new.onDone = some ⟨leaving, c.id⟩ := by rw [hnew]
  have hsound := hrun.sound hs
  refine Ends.view_bind (Ends.change_bind ?_)
  rw [← hnew]
  generalize hrun₁ : ({ run with
    stage := { run.stage with animator := run.stage.animator.make new } } : StageRun α) = run₁
  have hanimator : host.animator run₁ = run.stage.animator.make new := by
    rw [← hrun₁]
    rfl
  have hsignals : run₁.signals = [] := by rw [← hrun₁, ← hrun.signals]
  have htween := hanimator ▸ Animator.tween?_make_self new
  have hmade := hanimator ▸ hsound.make new
  have hfresh := hanimator ▸ hsound.not_mem_running_make new
  refine ((Host.add_running host_quiet htween hmade hfresh).and
    (Host.add_ends host_quiet htween hdone hmade hfresh)).mono fun _ run' hrun' => ?_
  obtain ⟨⟨htween', kept, hkept, hrunning⟩, -, -, hlog⟩ := hrun'
  have hsize : run.stage.animator.pool.size = s.animator.pool.size := by rw [hrun.pool]
  refine .begun ?_ ⟨⟨kept, ?_, hsize ▸ hrunning⟩, new, hsize ▸ htween', hdone,
    acknowledges hack hdone⟩
  · change run'.signals = run₁.signals ++ _ at hlog
    rw [StageRun.reports, hlog, hsignals, List.nil_append, filter_isReport_notes]
  · rw [hanimator] at hkept
    exact hkept.trans hrun.running

/-! ### Commands to actors -/

/-- An actor comes on stage and begins no tween, or its lack of an emotion is reported before
    anything else is done. -/
theorem enter_dealt (hc : c.Directs Placement.isPlace) (character : Character) (alpha : α) :
    Ends (enter c character alpha) { stage := s } fun number? run' =>
      (number? = none → c.Dealt s run') ∧ (number? ≠ none → s.Readied run') := by
  obtain ⟨place, hplace⟩ := startPlace_eq_ok hc
  have hrest (run : StageRun α) (hrun : s.Readied run) (actor : Nat → Position → Actor α) :
      Ends (do
        let place ← startPlace c.params
        let number ← fresh
        change fun s => { s with actors := s.actors.put character.name (actor number place) }
        return some number : StageAct α (Option Nat)) run fun number? run' =>
          (number? = none → c.Dealt s run') ∧ (number? ≠ none → s.Readied run') := by
    refine Ends.lift_bind hplace ((fresh_readied hrun).then_bind fun number run' hrun' => ?_)
    refine Ends.change_bind (Ends.pure ⟨by simp, fun _ => ?_⟩)
    exact hrun'.of_animator_eq rfl rfl
  unfold enter
  dsimp only
  split
  · exact (unresolved_dealt _).then_bind fun _ run' h => Ends.pure ⟨fun _ => h, by simp⟩
  · refine Ends.view_bind ?_
    split
    · next previous _ =>
      exact Ends.change_bind (hrest _ ((Readied.refl s).cancel previous.number) _)
    · exact hrest _ (.refl s) _

theorem direct_dealt (hs : s.animator.Sound) (hc : c.Directs Placement.isPlace) (name : String)
    (actor : Actor α) :
    Ends (direct c name actor) { stage := s } fun _ run' => c.Dealt s run' := by
  unfold direct
  split
  · next hverb =>
    have hnot : ¬ c.durational := hc.not_durational (by simp_all) (by simp_all)
    exact Ends.change_bind (change_dealt ((Readied.refl s).cancel actor.number) hnot _)
  split
  · exact Ends.view_bind (tween_dealt hs (.refl s))
  split
  · next hmove =>
    obtain ⟨place, hplace⟩ := targetPlace_eq_ok hc (by simpa using hmove)
    exact Ends.lift_bind hplace (Ends.view_bind (tween_dealt hs (.refl s)))
  split
  · next hfade hmove hlook =>
    obtain ⟨facing, hfacing⟩ := hc.facing (by simpa using hlook)
    have hnot : ¬ c.durational := hc.not_durational (by simpa using hfade) (by simpa using hmove)
    exact Ends.lift_bind (need_of_eq_some hfacing) (change_dealt (.refl s) hnot _)
  · exact unresolved_dealt _

theorem onActor_dealt (hs : s.animator.Sound) (hc : c.Directs Placement.isPlace) :
    Ends (onActor c) { stage := s } fun _ run' => c.Dealt s run' := by
  unfold onActor
  dsimp only
  split
  · next happear =>
    have hnot : ¬ c.durational := hc.not_durational (by simp_all) (by simp_all)
    refine calledCharacter_dealt.then_bind fun character? run' h => ?_
    cases character? with
    | none => exact Ends.pure (h.1 rfl)
    | some character =>
      rw [h.2 (by simp)]
      refine Ends.discard ((enter_dealt hc character Scalar.one).mono fun number? run'' h' => ?_)
      cases number? with
      | none => exact h'.1 rfl
      | some number => exact .done (h'.2 (by simp)).reports_eq_nil hnot
  · obtain ⟨fading, hfading⟩ := fadesIn_eq_ok hc
    refine Ends.lift_bind hfading ?_
    split
    · refine calledCharacter_dealt.then_bind fun character? run' h => ?_
      cases character? with
      | none => exact Ends.pure (h.1 rfl)
      | some character =>
        rw [h.2 (by simp)]
        refine (enter_dealt hc character Scalar.zero).then_bind fun number? run'' h' => ?_
        cases number? with
        | none => exact Ends.pure (h'.1 rfl)
        | some number => exact Ends.view_bind (tween_dealt hs (h'.2 (by simp)))
    · refine Ends.view_bind ?_
      split
      · exact unresolved_dealt _
      · exact direct_dealt hs hc _ _

/-! ### Commands to animations -/

/-- An animation comes on stage and begins no tween. -/
theorem stageAnimation_readied (hc : c.Directs fun placement => ¬ placement.isPlace)
    (name : String) (sheet : SpriteSheet) (alpha : α) :
    Ends (stageAnimation c name sheet alpha) { stage := s } fun _ run' => s.Readied run' := by
  have hcomes (position : List α) (scale : α) (layer : Int) :
      Ends (do
        let number ← fresh
        change fun s => { s with
          animations := s.animations.put name
            { number, sheet, position, scale, layer, alpha, elapsed := Scalar.zero } }
        return number : StageAct α Nat) { stage := s } fun _ run' => s.Readied run' := by
    refine (fresh_readied (.refl s)).then_bind fun number run' hrun' => ?_
    exact Ends.change_bind (Ends.pure (hrun'.of_animator_eq rfl rfl))
  refine Ends.view_bind ?_
  dsimp only
  split
  · next placement hposition =>
    cases placement with
    | place place => exact (hc.admitted _ hposition True.intro).elim
    | coords xs => exact Ends.lift_bind rfl (hcomes _ _ _)
  · exact Ends.bind (Ends.pure (hcomes _ _ _))

theorem directAnimation_dealt (hs : s.animator.Sound)
    (hc : c.Directs fun placement => ¬ placement.isPlace) (name : String) (a : Animated α) :
    Ends (directAnimation c name a) { stage := s } fun _ run' => c.Dealt s run' := by
  unfold directAnimation
  split
  · exact Ends.view_bind (tween_dealt hs (.refl s))
  split
  · next hmove =>
    obtain ⟨placement, hposition⟩ := hc.position (by simpa using hmove)
    refine Ends.lift_bind (need_of_eq_some hposition) ?_
    cases placement with
    | place place => exact (hc.admitted _ hposition True.intro).elim
    | coords xs => exact Ends.lift_bind rfl (Ends.view_bind (tween_dealt hs (.refl s)))
  split
  · next hfade hmove hlook =>
    obtain ⟨facing, hfacing⟩ := hc.facing (by simpa using hlook)
    have hnot : ¬ c.durational := hc.not_durational (by simpa using hfade) (by simpa using hmove)
    exact Ends.lift_bind (need_of_eq_some hfacing) (change_dealt (.refl s) hnot _)
  · exact unresolved_dealt _

theorem onAnimation_dealt (hs : s.animator.Sound)
    (hc : c.Directs fun placement => ¬ placement.isPlace) :
    Ends (onAnimation c) { stage := s } fun _ run' => c.Dealt s run' := by
  obtain ⟨fading, hfading⟩ := fadesIn_eq_ok hc
  refine Ends.lift_bind hfading ?_
  split
  · next happear =>
    refine Ends.view_bind ?_
    split
    · exact unresolved_dealt _
    · refine (stageAnimation_readied hc _ _ _).then_bind fun number run' hrun' => ?_
      split
      · exact Ends.view_bind (tween_dealt hs hrun')
      · next hfading =>
        refine Ends.pure (.done hrun'.reports_eq_nil ?_)
        exact hc.not_durational (by simp_all) (by simp_all)
  · refine Ends.view_bind ?_
    split
    · exact unresolved_dealt _
    · exact directAnimation_dealt hs hc _ _

/-! ### Lines of dialogue -/

/-- A line of dialogue comes into the box whether or not its emotion was reported. -/
theorem onDialogue_settles (hdialogue : c.subsystem = .dialogue)
    (hspeaker : c.params.speaker ≠ none) (hnarrator : c.params.narrator ≠ none)
    (htext : c.params.text ≠ none) (hc : ¬ c.durational) :
    Ends (onDialogue c) { stage := s } fun _ run' => c.Settled s run' := by
  obtain ⟨speaker, hspeaker⟩ := Option.ne_none_iff_exists'.1 hspeaker
  obtain ⟨narrating, hnarrator⟩ := Option.ne_none_iff_exists'.1 hnarrator
  obtain ⟨text, htext⟩ := Option.ne_none_iff_exists'.1 htext
  have hrest (run : StageRun α) (hbox : run.stage.box = s.box) (hsignals : run.signals = [] ∨
      ∃ reason, run = { stage := s, signals := [.unresolved c.id reason] }) :
      Ends (do
        let narrating ← need "narrator" c.params.narrator
        change fun s => { s with narrating }
        let text ← need "text" c.params.text
        change fun s => { s with box := s.box.show speaker text } : StageAct α Unit) run
        fun _ run' => c.Settled s run' := by
    refine Ends.lift_bind (need_of_eq_some hnarrator) (Ends.change_bind ?_)
    refine Ends.lift_bind (need_of_eq_some htext) (Ends.change ?_)
    have hshown : run.stage.box.show speaker text = s.box.show speaker text := by rw [hbox]
    have hstage : ¬ (c.subsystem = .actor ∨ c.subsystem = .animation) := by simp [hdialogue]
    refine ⟨?_, fun h => absurd h hstage, fun _ => ⟨speaker, text, hspeaker, htext, hshown⟩,
      fun _ hreported => ?_, fun h => absurd h hc⟩
    · rcases hsignals with hsignals | ⟨reason, rfl⟩
      · exact .inl (by simp [StageRun.reports, hsignals])
      · exact .inr ⟨reason, rfl⟩
    · rcases hsignals with hsignals | ⟨reason, rfl⟩
      · exact absurd (by simp [StageRun.reports, hsignals]) hreported
      · rfl
  refine Ends.lift_bind (need_of_eq_some hspeaker) ?_
  split
  · next emotion _ =>
    exact (changeEmotion_settles emotion).then_bind fun _ run' h => hrest run' h.1 h.2
  · exact hrest _ rfl (.inl rfl)

/-! ### All commands -/

/-- Every playable command is settled on a stage whose tweens are in order. -/
theorem handle_settles (hs : s.animator.Sound) (hc : c.Playable) :
    Ends (handle c) { stage := s } fun _ run' => c.Settled s run' := by
  have hsettled (a : StageAct α Unit) (hdialogue : c.subsystem ≠ .dialogue)
      (ha : Ends a { stage := s } fun _ run' => c.Dealt s run') :
      Ends a { stage := s } fun _ run' => c.Settled s run' :=
    ha.mono fun _ _ h => h.settled hs hdialogue
  unfold Command.Playable at hc
  unfold handle
  cases hsubsystem : c.subsystem with
  | actor =>
    exact hsettled _ (by simp [hsubsystem]) (onActor_dealt hs (by simpa [hsubsystem] using hc))
  | animation =>
    exact hsettled _ (by simp [hsubsystem]) (onAnimation_dealt hs (by simpa [hsubsystem] using hc))
  | background =>
    rw [hsubsystem] at hc
    obtain ⟨id, hid⟩ := Option.ne_none_iff_exists'.1 hc.1
    refine hsettled _ (by simp [hsubsystem]) ?_
    exact Ends.lift_bind (need_of_eq_some hid) (change_dealt (.refl s) hc.2 _)
  | gui =>
    rw [hsubsystem] at hc
    obtain ⟨panel, hpanel⟩ := Option.ne_none_iff_exists'.1 hc.1
    obtain ⟨id, hid⟩ := Option.ne_none_iff_exists'.1 hc.2.1
    refine hsettled _ (by simp [hsubsystem]) (Ends.lift_bind (need_of_eq_some hpanel) ?_)
    exact Ends.lift_bind (need_of_eq_some hid) (change_dealt (.refl s) hc.2.2 _)
  | dialogue =>
    rw [hsubsystem] at hc
    exact onDialogue_settles hsubsystem hc.1 hc.2.1 hc.2.2.1 hc.2.2.2
  | log =>
    rw [hsubsystem] at hc
    obtain ⟨text, htext⟩ := Option.ne_none_iff_exists'.1 hc.1
    refine hsettled _ (by simp [hsubsystem]) ?_
    exact Ends.lift_bind (need_of_eq_some htext) (change_dealt (.refl s) hc.2 _)
  | scene =>
    rw [hsubsystem] at hc
    obtain ⟨name, hname⟩ := Option.ne_none_iff_exists'.1 hc.1
    refine hsettled _ (by simp [hsubsystem]) ?_
    exact Ends.lift_bind (need_of_eq_some hname) (change_dealt (.refl s) hc.2 _)

end StageAct

namespace Stage

/-- Whatever has happened on a stage that was empty once, every command of a compiled script is
    settled there, and settling it does not fail. -/
theorem command_settled [Scalar α] {script : Script} (hscript : script.Compiled) {scene : Scene}
    (hscene : scene ∈ script.scenes) {d : Numbered} (hd : d ∈ scene.directives)
    {resolved : Resolved} {id : Int} {c : Command}
    (hc : d.directive.dispatch resolved id = .ok c) (cast : Cast) (reveal : RevealParams α)
    (durations : EffectDurations α) (logCapacity : Nat) (deeds : List (Deed α)) :
    let s := (Stage.empty cast reveal durations logCapacity).after deeds
    Ends (StageAct.handle c) { stage := s } fun _ run => c.Settled s run := by
  intro s
  have hempty : (Stage.empty cast reveal durations logCapacity).Orderly :=
    orderly_empty cast reveal durations logCapacity
  have hwellFormed := (hscript.wellFormed.scenes scene hscene).directives d hd
  exact StageAct.handle_settles (hempty.after deeds).1.sound (hwellFormed.playable hc).1

/-- A move of an actor takes time. On a stage where somebody of that name came and left it is
    settled. -/
theorem command_settled_ghost :
    let comes : Command := {
      id := 1, subsystem := .actor, verb := "appear", target := some "Ghost", params := {} }
    let leaves : Command := { comes with id := 2, verb := "disappear" }
    let ghost : Character := ⟨"Ghost", [("sheet", [("calm", "ghost.png")])], "sheet", "calm", ""⟩
    let s : Stage Float :=
      (Stage.empty { characters := [("Ghost", ghost)] } .standard .standard 4).after
        [.command comes, .time Scalar.zero, .command leaves]
    ∃ script scene d c, Script.compile "SCENE a\n(Ghost moves to left)\nCURTAIN\n" = .ok script ∧
      scene ∈ script.scenes ∧ d ∈ scene.directives ∧ d.directive.dispatch {} 3 = .ok c ∧
      c.durational ∧ Ends (StageAct.handle c) { stage := s } fun _ run => c.Settled s run := by
  intro comes leaves ghost s
  have hmoves : (Script.compile "SCENE a\n(Ghost moves to left)\nCURTAIN\n").toOption.any
      fun script => script.scenes.any fun scene =>
        scene.directives.any fun d => d.directive.isDurational := by
    decide +kernel
  obtain ⟨script, hoption, hmoves⟩ := (Option.any_eq_true _ _).1 hmoves
  obtain ⟨scene, hscene, hmoves⟩ := List.any_eq_true.1 hmoves
  obtain ⟨d, hd, hmoves⟩ := List.any_eq_true.1 hmoves
  have hcompile : Script.compile "SCENE a\n(Ghost moves to left)\nCURTAIN\n" = .ok script := by
    cases hresult : Script.compile "SCENE a\n(Ghost moves to left)\nCURTAIN\n" with
    | error e => simp [hresult, Except.toOption] at hoption
    | ok script' => simpa [hresult, Except.toOption] using hoption
  obtain ⟨c, hc, hdurational⟩ : ∃ c, d.directive.dispatch {} 3 = .ok c ∧ c.durational := by
    cases hdirective : d.directive with
    | dialogue line => simp [hdirective, Directive.isDurational] at hmoves
    | log message => simp [hdirective, Directive.isDurational] at hmoves
    | stage direction =>
      rw [hdirective] at hmoves
      exact ⟨_, rfl, hmoves⟩
  exact ⟨script, scene, d, c, hcompile, hscene, hd, hc, hdurational,
    command_settled ⟨_, _, hcompile⟩ hscene hd hc _ _ _ _ _⟩

end Stage

end VisualNovel

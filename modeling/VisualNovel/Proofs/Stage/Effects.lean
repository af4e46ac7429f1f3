import VisualNovel.Proofs.Number.Elapsing
import VisualNovel.Proofs.Stage.Animator
import VisualNovel.Stage.Stage

/-!
Effects: the tweens of the stage. Each one owes an acknowledgement to one command, no two of them to
the same, and it is given when the effect is over, however it ends.
-/

namespace VisualNovel

open Act

/-- A tween of the stage. -/
abbrev Effect := Tween Nat Slot Acknowledgement Float

namespace Effect

/-- The command that an effect acknowledges at its end. -/
def command? (e : Effect) : Option Int := e.onDone.map (·.command)

/-- An effect can be shown at any time, its time runs forward, and it owes an acknowledgement to a
    command with an id below `next`. -/
structure Sound (next : Int) (e : Effect) : Prop where
  mixes : e.Mixes
  elapsed_nonneg : Scalar.lessEq Scalar.zero e.elapsed
  acknowledges : ∃ command, e.command? = some command ∧ command < next

/-- The signal that a done effect sends is the acknowledgement that it owes. -/
theorem mem_notes {e : Effect} {command : Int} (hcommand : e.command? = some command)
    (hdone : e.isDone) :
    Signal.completed command ∈ e.notes fun ack => Signal.completed ack.command := by
  obtain ⟨ack, hack, rfl⟩ := Option.map_eq_some_iff.1 hcommand
  simp [Tween.notes, hdone, hack]

theorem Sound.after {next : Int} {e : Effect} (h : e.Sound next) {dt : Float}
    (hdt : Scalar.lessEq Scalar.zero dt) : Sound next (e.after dt) :=
  ⟨h.mixes, Number.lessEq_zero_add h.elapsed_nonneg hdt, h.acknowledges⟩

theorem command?_yieldTo (new e : Effect) : command? (Tween.yieldTo new e) = e.command? := by
  unfold Tween.yieldTo
  split <;> rfl

theorem Sound.yieldTo {next : Int} {e : Effect} (h : e.Sound next) (new : Effect) :
    Sound next (Tween.yieldTo new e) := by
  unfold Tween.yieldTo
  split
  · exact ⟨h.mixes, h.elapsed_nonneg, h.acknowledges⟩
  · exact h

/-- An effect is over after a time that is at least its duration, however long it has run. -/
theorem after_isDone {e : Effect} {dt : Float} (helapsed : Scalar.lessEq Scalar.zero e.elapsed)
    (hdt : Scalar.lessEq e.duration dt) : (e.after dt).isDone := by
  have hfraction :
      Tween.fraction ({ e with elapsed := e.elapsed + dt } : Effect) = Scalar.one := by
    unfold Tween.fraction
    split
    · rfl
    · next hduration =>
      have hover : Scalar.less ((e.elapsed + dt) / e.duration) Scalar.one = false :=
        Number.div_add_not_less_one helapsed (by simpa using hduration) hdt
      have hleast : Scalar.least Scalar.one ((e.elapsed + dt) / e.duration) = Scalar.one := by
        rw [Scalar.least, hover]
        rfl
      show Scalar.greatest Scalar.zero (Scalar.least Scalar.one _) = _
      rw [hleast]
      exact if_pos (by decide)
  show Tween.isOver _ = true
  rw [Tween.isOver, hfraction]
  decide

/-- Effects are in order and owe their acknowledgements to different commands. -/
structure AllSound (next : Int) (es : List Effect) : Prop where
  sound : ∀ e ∈ es, Effect.Sound next e
  commands_nodup : (es.map command?).Nodup

namespace AllSound

variable {next : Int} {es : List Effect}

theorem mono (h : AllSound next es) {next' : Int} (hle : next ≤ next') : AllSound next' es := by
  refine ⟨fun e he => ?_, h.commands_nodup⟩
  obtain ⟨hmixes, helapsed, command, hcommand, hlt⟩ := h.sound e he
  exact ⟨hmixes, helapsed, command, hcommand, Int.lt_of_lt_of_le hlt hle⟩

theorem sublist (h : AllSound next es) {es' : List Effect} (hes : es'.Sublist es) :
    AllSound next es' :=
  ⟨fun e he => h.sound e (hes.subset he), h.commands_nodup.sublist (hes.map _)⟩

/-- Effects may be changed as long as what they owe stays. -/
theorem map (h : AllSound next es) {f : Effect → Effect}
    (hf : ∀ e, Effect.Sound next e → Effect.Sound next (f e))
    (hcommand : ∀ e, command? (f e) = e.command?) : AllSound next (es.map f) := by
  refine ⟨fun e he => ?_, ?_⟩
  · obtain ⟨e', he', rfl⟩ := List.mem_map.1 he
    exact hf e' (h.sound e' he')
  · have hmap : (es.map f).map command? = es.map command? := by
      rw [List.map_map]
      exact List.map_congr_left fun e _ => hcommand e
    exact hmap ▸ h.commands_nodup

/-- An effect may begin for a command that no effect has been owing anything yet. -/
theorem concat (h : AllSound next es) {e : Effect} (he : Effect.Sound (next + 1) e)
    (hcommand : e.command? = some next) : AllSound (next + 1) (es ++ [e]) := by
  refine ⟨fun e' he' => ?_, ?_⟩
  · rcases List.mem_append.1 he' with hmem | hmem
    · exact (h.mono (by omega)).sound e' hmem
    · rwa [List.mem_singleton.1 hmem]
  · rw [List.map_append, List.map_singleton]
    refine List.nodup_append.2 ⟨h.commands_nodup, by simp, fun owed howed _ hnext heq => ?_⟩
    obtain ⟨e', he', rfl⟩ := List.mem_map.1 howed
    obtain ⟨command, hcommand', hlt⟩ := (h.sound e' he').acknowledges
    rw [heq, List.mem_singleton.1 hnext, hcommand] at hcommand'
    cases hcommand'
    exact absurd hlt (Int.lt_irrefl _)

/-- Only one effect owes an acknowledgement to a command. -/
theorem filter_eq_singleton (h : AllSound next es) {e : Effect} (he : e ∈ es) :
    es.filter (fun e' => command? e' = e.command?) = [e] := by
  have hnodup := h.commands_nodup
  clear h
  induction es with
  | nil => cases he
  | cons first rest ih =>
    rw [List.map_cons, List.nodup_cons] at hnodup
    rcases List.mem_cons.1 he with rfl | hrest
    · rw [List.filter_cons_of_pos (by simp), List.cons.injEq]
      refine ⟨rfl, List.filter_eq_nil_iff.2 fun e' he' heq => hnodup.1 ?_⟩
      exact List.mem_map.2 ⟨e', he', of_decide_eq_true heq⟩
    · rw [List.filter_cons_of_neg]
      · exact ih hrest hnodup.2
      · simp only [decide_eq_true_eq]
        exact fun heq => hnodup.1 (List.mem_map.2 ⟨e, hrest, heq.symm⟩)

end AllSound

end Effect

/-! ### The effects of a stage -/

namespace Stage

/-- All effects that run are in order, and the commands to come have ids from `next` on. -/
structure Sound (next : Int) (s : Stage Float) : Prop where
  animator : s.animator.Sound
  effects : Effect.AllSound next s.animator.unfinished

/-- An effect that runs owes this command its acknowledgement. -/
def Owes (s : Stage Float) (command : Int) : Prop :=
  ∃ e ∈ s.animator.unfinished, Effect.command? e = some command

variable {s s' : Stage Float} {next : Int}

theorem Sound.of_animator_eq (h : s.Sound next) (heq : s'.animator = s.animator) :
    s'.Sound next :=
  ⟨heq ▸ h.animator, heq ▸ h.effects⟩

theorem Sound.mono (h : s.Sound next) {next' : Int} (hle : next ≤ next') : s.Sound next' :=
  ⟨h.animator, h.effects.mono hle⟩

end Stage

namespace StageAct

/-- The stage's answers to its tweens only say that an effect is over, and whoever leaves then
    takes no tween away. -/
theorem host_quiet {α : Type} [Scalar α] : (host (α := α)).Quiet (·.signals)
    fun ack => Signal.completed ack.command where
  animator_set _ _ := rfl
  log_set _ _ := rfl
  animator_write _ _ _ _ := rfl
  log_write _ _ _ _ := rfl
  fire ack run := by
    obtain ⟨leaving, command⟩ := ack
    obtain _ | (name | name) := leaving <;> exact ⟨(), _, rfl, rfl, rfl⟩

/-- A tween that begins runs behind the others, and those that it supersedes are done. -/
theorem tween_added {α : Type} [Scalar α] {run : StageRun α} (hs : run.stage.animator.Sound)
    {number : Nat} {slot : Slot} {start finish : TweenValue α} {duration : α} {ease : Ease}
    {ack : Acknowledgement} {new : Tween Nat Slot Acknowledgement α}
    (hnew : new = ⟨number, slot, start, finish, duration, ease, Scalar.zero, some ack, false⟩) :
    Ends (tween number slot start finish duration ease ack) run fun _ run' =>
      run'.stage.animator.Sound ∧ run'.stage.animator.unfinished =
        (run.stage.animator.unfinished.map (Tween.yieldTo new)).filter (fun tw => !tw.isDone) ++
          [new] := by
  have hdone : new.isDone = false := by rw [hnew]
  refine Ends.view_bind (Ends.change_bind ?_)
  rw [← hnew]
  generalize hrun₁ : ({ run with
    stage := { run.stage with animator := run.stage.animator.make new } } : StageRun α) = run₁
  have hanimator : host.animator run₁ = run.stage.animator.make new := by
    rw [← hrun₁]
    rfl
  have hunfinished : (host.animator run₁).unfinished = run.stage.animator.unfinished := by
    rw [hanimator, hs.unfinished_make]
  rw [← hunfinished]
  exact (Host.add_ends host_quiet (hanimator ▸ Animator.tween?_make_self new) hdone
    (hanimator ▸ hs.make new) (hanimator ▸ hs.not_mem_running_make new)).mono
      fun _ run' hrun' => ⟨hrun'.1, hrun'.2.1⟩

variable {run : StageRun Float} {next : Int}

/-- Time that passes on a stage settles effects: whoever was owed an acknowledgement still is, or
    has it. Those that last no longer than that time are over. -/
theorem update_ends (hs : run.stage.Sound next) {dt : Float}
    (hdt : Scalar.lessEq Scalar.zero dt) :
    Ends (update dt) run fun _ run' => run'.stage.Sound next ∧
      ∀ e ∈ run.stage.animator.unfinished, ∀ command, Effect.command? e = some command →
        .completed command ∈ run'.signals ∨
          run'.stage.Owes command ∧ ¬ Scalar.lessEq e.duration dt := by
  have hmixes : ∀ tw ∈ (host.animator run).unfinished, tw.Mixes :=
    fun e he => (hs.effects.sound e he).mixes
  refine (Host.update_ends host_quiet hs.animator hmixes dt).then_bind fun _ run' hrun' => ?_
  obtain ⟨hsound, hunfinished, hsignals⟩ := hrun'
  change run'.stage.animator.Sound at hsound
  change run'.stage.animator.unfinished = (run.stage.animator.unfinished.map _).filter _
    at hunfinished
  change run'.signals = run.signals ++ (run.stage.animator.unfinished.map _).flatMap _ at hsignals
  refine Ends.change ⟨?_, fun e he command hcommand => ?_⟩
  · have heffects := hs.effects.map (f := Tween.after dt) (fun e he => he.after hdt) fun _ => rfl
    exact ⟨hsound, hunfinished ▸ heffects.sublist List.filter_sublist⟩
  · have hmem := List.mem_map_of_mem (f := Tween.after dt) he
    cases hdone : (e.after dt).isDone with
    | true =>
      refine .inl ?_
      show _ ∈ run'.signals
      rw [hsignals]
      exact List.mem_append_right _ (List.mem_flatMap.2 ⟨_, hmem, Effect.mem_notes hcommand hdone⟩)
    | false =>
      refine .inr ⟨⟨e.after dt, ?_, hcommand⟩, fun hle => ?_⟩
      · show _ ∈ run'.stage.animator.unfinished
        rw [hunfinished, List.mem_filter]
        exact ⟨hmem, by simp [hdone]⟩
      · rw [Effect.after_isDone (hs.effects.sound e he).elapsed_nonneg hle] at hdone
        cases hdone

end StageAct

end VisualNovel

import VisualNovel.Proofs.Stage.Still
import VisualNovel.Proofs.Table

/-!
Who stands on stage under which name, and which fade-outs run. Whoever comes on stage gets a number
of its own, which tells it apart from those who stand under its name before and after. A fade-out
changes whom it fades by that number, but at its end it takes off the stage whoever stands under a
name.
-/

namespace VisualNovel

open Act

variable {α : Type}

/-! ### Names -/

namespace Stage

/-- The number of whoever stands on stage under a name. -/
def standing? (s : Stage α) : Leaving → Option Nat
  | .actor name => (s.actors.get? name).map (·.number)
  | .animation name => (s.animations.get? name).map (·.number)

variable {s s' : Stage α}

theorem standing?_remove (s : Stage α) (who other : Leaving) :
    (s.remove who).standing? other = if other = who then none else s.standing? other := by
  cases who with
  | actor name =>
    cases other with
    | actor other =>
      simp only [standing?, remove, Table.get?_erase, Leaving.actor.injEq]
      split <;> rfl
    | animation other => simp [standing?, remove]
  | animation name =>
    cases other with
    | actor other => simp [standing?, remove]
    | animation other =>
      simp only [standing?, remove, Table.get?_erase, Leaving.animation.injEq]
      split <;> rfl

theorem standing?_putActor (s : Stage α) (name : String) (a : Actor α) (who : Leaving) :
    standing? { s with actors := s.actors.put name a } who =
      if who = .actor name then some a.number else s.standing? who := by
  cases who with
  | actor other =>
    simp only [standing?, Table.get?_put, Leaving.actor.injEq]
    split <;> rfl
  | animation other => simp [standing?]

theorem standing?_putAnimation (s : Stage α) (name : String) (a : Animated α) (who : Leaving) :
    standing? { s with animations := s.animations.put name a } who =
      if who = .animation name then some a.number else s.standing? who := by
  cases who with
  | actor other => simp [standing?]
  | animation other =>
    simp only [standing?, Table.get?_put, Leaving.animation.injEq]
    split <;> rfl

@[simp] theorem remove_animator (s : Stage α) (who : Leaving) :
    (s.remove who).animator = s.animator := by
  cases who <;> rfl

@[simp] theorem remove_nextNumber (s : Stage α) (who : Leaving) :
    (s.remove who).nextNumber = s.nextNumber := by
  cases who <;> rfl

theorem standing?_changeActor (s : Stage α) (name : String) {f : Actor α → Actor α}
    (hf : ∀ a, (f a).number = a.number) (who : Leaving) :
    standing? { s with actors := s.actors.change name f } who = s.standing? who := by
  cases who with
  | actor other => exact Table.map_get?_change hf name other
  | animation other => rfl

theorem standing?_changeAnimation (s : Stage α) (name : String) {f : Animated α → Animated α}
    (hf : ∀ a, (f a).number = a.number) (who : Leaving) :
    standing? { s with animations := s.animations.change name f } who = s.standing? who := by
  cases who with
  | actor other => rfl
  | animation other => exact Table.map_get?_change hf name other

theorem standing?_write [Scalar α] (s : Stage α) (number : Nat) (slot : Slot)
    (value : TweenValue α) (who : Leaving) :
    (s.write number slot value).standing? who = s.standing? who := by
  cases who with
  | actor name =>
    show (Table.get? (s.actors.map _) name).map _ = (s.actors.get? name).map _
    refine Table.map_get?_of_eq (by intro _; rfl) ?_ name
    rintro ⟨_, a⟩
    dsimp only
    split
    · exact a.write_number slot
    · rfl
  | animation name =>
    show (Table.get? (s.animations.map _) name).map _ = (s.animations.get? name).map _
    refine Table.map_get?_of_eq (by intro _; rfl) ?_ name
    rintro ⟨_, a⟩
    dsimp only
    split
    · exact a.write_number slot
    · rfl

end Stage

/-! ### Fade-outs -/

namespace Stage

/-- Tween `i` is a fade-out that runs: it changes whoever has the number, and when it is over,
    whoever stands under the name leaves. -/
structure Fades (s : Stage α) (i : Nat) (who : Leaving) (number : Nat) : Prop where
  running : i ∈ s.animator.running
  undone : s.animator.isDone i = false
  task : ∃ slot command, s.animator.task? i = some (number, slot, some ⟨some who, command⟩)

/-- Whoever stands under the name of a fade-out that has come to its end left, and nobody else. -/
structure Vacates (s s' : Stage α) : Prop where
  gone : ∀ i who n, s.Fades i who n → s'.animator.isDone i → s'.standing? who = none
  stays : ∀ who, (∀ i n, s.Fades i who n → s'.animator.isDone i = false) →
    s'.standing? who = s.standing? who

theorem Vacates.standing?_of_some {s s' : Stage α} (h : s.Vacates s') {who : Leaving} {m : Nat}
    (hm : s'.standing? who = some m) : s.standing? who = some m := by
  by_cases hends : ∀ i n, s.Fades i who n → s'.animator.isDone i = false
  · rw [← h.stays who hends, hm]
  · push Not at hends
    obtain ⟨i, n, hfades, hdone⟩ := hends
    rw [h.gone i who n hfades (by simpa using hdone)] at hm
    cases hm

/-- Some of the tweens that run came to their ends, and nothing else happened. -/
structure Completes (s s' : Stage α) : Prop extends s.Vacates s' where
  nextNumber : s'.nextNumber = s.nextNumber
  size : s'.animator.pool.size = s.animator.pool.size
  running : s'.animator.running = s.animator.running
  task : ∀ i, s'.animator.task? i = s.animator.task? i
  done : ∀ i, s.animator.isDone i → s'.animator.isDone i
  ended_running : ∀ i, s.animator.isDone i = false → s'.animator.isDone i →
    i ∈ s.animator.running

namespace Completes

variable {s s' s'' : Stage α}

theorem refl (s : Stage α) : s.Completes s :=
  ⟨⟨fun _ _ _ h h' => by simp [h.undone] at h', fun _ _ => rfl⟩, rfl, rfl, rfl, fun _ => rfl,
    fun _ h => h, fun _ h h' => by simp [h] at h'⟩

/-- A fade-out that still runs is the same one as before. -/
theorem fades_iff (h : s.Completes s') {i : Nat} {who : Leaving} {n : Nat} :
    s'.Fades i who n ↔ s.Fades i who n ∧ s'.animator.isDone i = false := by
  constructor
  · rintro ⟨hrunning, hundone, htask⟩
    refine ⟨⟨h.running ▸ hrunning, ?_, h.task i ▸ htask⟩, hundone⟩
    rw [← Bool.not_eq_true]
    intro hdone
    simp [h.done i hdone] at hundone
  · rintro ⟨⟨hrunning, -, htask⟩, hundone⟩
    exact ⟨h.running ▸ hrunning, hundone, (h.task i).symm ▸ htask⟩

theorem trans (h : s.Completes s') (h' : s'.Completes s'') : s.Completes s'' where
  gone i who n hfades hdone := by
    cases hmid : s'.animator.isDone i with
    | true =>
      rw [← Option.not_isSome_iff_eq_none, Option.isSome_iff_exists]
      rintro ⟨m, hm⟩
      have hstood := h'.standing?_of_some hm
      rw [h.gone i who n hfades hmid] at hstood
      cases hstood
    | false => exact h'.gone i who n (h.fades_iff.2 ⟨hfades, hmid⟩) hdone
  stays who hundone := by
    have hmid (i n) (hfades : s.Fades i who n) : s'.animator.isDone i = false := by
      rw [← Bool.not_eq_true]
      intro hdone
      simpa [h'.done i hdone] using hundone i n hfades
    rw [h'.stays who fun i n hfades => hundone i n (h.fades_iff.1 hfades).1, h.stays who hmid]
  nextNumber := h'.nextNumber.trans h.nextNumber
  size := h'.size.trans h.size
  running := h'.running.trans h.running
  task i := (h'.task i).trans (h.task i)
  done i hi := h'.done i (h.done i hi)
  ended_running i hundone hdone := by
    cases hmid : s'.animator.isDone i with
    | true => exact h.ended_running i hundone hmid
    | false => exact h.running ▸ h'.ended_running i hmid hdone

/-- Changes that have nothing to do with who stands on stage, or with which tweens run and what
    they are for. -/
theorem of_same (hnextNumber : s'.nextNumber = s.nextNumber)
    (hsize : s'.animator.pool.size = s.animator.pool.size)
    (hrunning : s'.animator.running = s.animator.running)
    (htask : ∀ i, s'.animator.task? i = s.animator.task? i)
    (hdone : ∀ i, s'.animator.isDone i = s.animator.isDone i)
    (hstanding : ∀ who, s'.standing? who = s.standing? who) : s.Completes s' where
  gone i _ _ hfades hi := by simp [hdone, hfades.undone] at hi
  stays who _ := hstanding who
  nextNumber := hnextNumber
  size := hsize
  running := hrunning
  task := htask
  done i hi := by rw [hdone, hi]
  ended_running i hundone hi := by simp [hdone, hundone] at hi

/-- A tween that runs comes to its end: whoever stands under its name leaves, if it has one. -/
theorem of_ended {i : Nat} (hi : i ∈ s.animator.running)
    {tw : Tween Nat Slot Acknowledgement α} (htw : s.animator.tween? i = some tw)
    (hundone : tw.isDone = false) (hnextNumber : s'.nextNumber = s.nextNumber)
    (hanimator : s'.animator = s.animator.change i Tween.ended)
    (hstanding : ∀ who, s'.standing? who =
      if tw.onDone.bind (·.leaving) = some who then none else s.standing? who) :
    s.Completes s' := by
  have hself : s'.animator.isDone i = true := by
    rw [hanimator, Animator.isDone_change_self htw]
    rfl
  have hother (j : Nat) (hij : i ≠ j) : s'.animator.isDone j = s.animator.isDone j := by
    rw [hanimator, Animator.isDone_change_of_ne hij]
  have hended (j : Nat) (hbefore : s.animator.isDone j = false) (hj : s'.animator.isDone j) :
      i = j := by
    by_contra hij
    simp [hother j hij, hbefore] at hj
  refine ⟨⟨fun j who n hwho hj => ?_, fun who hends => ?_⟩, hnextNumber, ?_, ?_, fun j => ?_,
    fun j hj => ?_, fun j hbefore hj => hended j hbefore hj ▸ hi⟩
  · obtain rfl := hended j hwho.undone hj
    obtain ⟨slot, command, htask⟩ := hwho.task
    rw [Animator.task?, htw] at htask
    simp only [Option.map_some, Option.some.injEq, Prod.mk.injEq] at htask
    rw [hstanding, htask.2.2]
    exact if_pos rfl
  · rw [hstanding, if_neg]
    intro hleaving
    obtain ⟨⟨leaving, command⟩, honDone, rfl⟩ := Option.bind_eq_some_iff.1 hleaving
    have hfades : s.Fades i who tw.object := by
      refine ⟨hi, by rw [Animator.isDone_of_tween? htw, hundone], tw.slot, command, ?_⟩
      simp [Animator.task?, htw, honDone]
    simpa [hself] using hends i tw.object hfades
  · rw [hanimator, Animator.size_change]
  · rw [hanimator]
    rfl
  · rw [hanimator]
    exact Animator.task?_change (f := Tween.ended) (fun _ _ => rfl) j
  · by_cases hij : i = j
    · exact hij ▸ hself
    · rw [hother j hij, hj]

end Completes

end Stage

/-! ### Tweens that come to their ends -/

namespace StageAct

variable [Scalar α] {s : Stage α} {i : Nat}

/-- What is done leaves the stage with nothing but tweens that came to their ends. -/
abbrev Completing (s : Stage α) {β : Type} (a : StageAct α β) : Prop :=
  Keeps (fun run => s.Completes run.stage) (fun _ => True) a

theorem finish_completing (hi : i ∈ s.animator.running) : Completing s (host.finish i) := by
  refine Keeps.of_ends fun run hrun => Ends.get_bind ?_
  cases htw : (host.animator run).tween? i with
  | none => exact Ends.pure hrun
  | some tw =>
    dsimp only
    split
    · exact Ends.pure hrun
    next hdone =>
    have hundone : tw.isDone = false := by simpa using hdone
    have hended (t : Stage α) (hnextNumber : t.nextNumber = run.stage.nextNumber)
        (hanimator : t.animator = run.stage.animator.change i Tween.ended)
        (hstanding : ∀ who, t.standing? who =
          if tw.onDone.bind (·.leaving) = some who then none else run.stage.standing? who) :
        s.Completes t :=
      hrun.trans (.of_ended (hrun.running ▸ hi) htw hundone hnextNumber hanimator hstanding)
    refine Ends.change_bind ?_
    generalize hrun₁ : host.modify (fun a => a.change i fun tw => { tw with isDone := true })
      (host.write tw.object tw.slot tw.finish run) = run₁
    have hnextNumber : run₁.stage.nextNumber = run.stage.nextNumber := by rw [← hrun₁]; rfl
    have hanimator : run₁.stage.animator = run.stage.animator.change i Tween.ended := by
      rw [← hrun₁]
      rfl
    have hwritten (who : Leaving) : run₁.stage.standing? who = run.stage.standing? who := by
      rw [← hrun₁]
      exact run.stage.standing?_write tw.object tw.slot tw.finish who
    -- the callback runs last: it may take somebody off the stage, and says what has ended
    cases honDone : tw.onDone with
    | none =>
      exact Ends.pure (hended _ hnextNumber hanimator fun who => by simp [honDone, hwritten])
    | some ack =>
      obtain ⟨_ | who, command⟩ := ack
      · refine ⟨(), _, rfl, hended _ hnextNumber hanimator fun who => ?_⟩
        simpa [honDone] using hwritten who
      · refine ⟨(), _, rfl, hended _ ?_ ?_ fun other => ?_⟩
        · exact (run₁.stage.remove_nextNumber who).trans hnextNumber
        · exact (run₁.stage.remove_animator who).trans hanimator
        · show (run₁.stage.remove who).standing? other = _
          rw [Stage.standing?_remove, hwritten, honDone]
          simp only [Option.bind_some, Option.some.injEq, eq_comm]

/-- A tween that runs on. As long as it is not over, nobody comes or leaves. -/
theorem advance_completing (hi : i ∈ s.animator.running) (dt : α) :
    Completing s (host.advance i dt) := by
  refine Keeps.of_lands fun run hrun => Lands.get_bind ?_
  cases htw : (host.animator run).tween? i with
  | none => exact Lands.pure hrun
  | some tw =>
    dsimp only
    split
    · exact Lands.pure hrun
    generalize htw' : ({ tw with elapsed := tw.elapsed + dt } : Tween _ _ _ α) = tw'
    refine Lands.change_bind ?_
    generalize hrun₁ : host.modify (fun a => a.change i fun _ => tw') run = run₁
    have htw₁ : run.stage.animator.tween? i = some tw := htw
    have hlater : s.Completes run₁.stage := by
      have hanimator : run₁.stage.animator = run.stage.animator.change i fun _ => tw' := by
        rw [← hrun₁]
        rfl
      refine hrun.trans (.of_same ?_ ?_ ?_ (fun j => ?_) (fun j => ?_) fun who => ?_)
      · rw [← hrun₁]
        rfl
      · rw [hanimator, Animator.size_change]
      · rw [hanimator]
        rfl
      · rw [hanimator]
        refine Animator.task?_change (fun tw₀ htw₀ => ?_) j
        rw [show tw₀ = tw from Option.some.inj (htw₀.symm.trans htw₁), ← htw']
      · rw [hanimator]
        by_cases hij : i = j
        · subst hij
          rw [Animator.isDone_change_self htw₁, Animator.isDone_of_tween? htw₁, ← htw']
        · rw [Animator.isDone_change_of_ne hij]
      · rw [← hrun₁]
        rfl
    split
    · exact Lands.throw hlater
    · next value _ =>
      refine Lands.change_bind ?_
      have hwritten : s.Completes (host.write tw.object tw.slot value run₁).stage :=
        hlater.trans (.of_same rfl rfl rfl (fun _ => rfl) (fun _ => rfl)
          (run₁.stage.standing?_write tw.object tw.slot value))
      split
      · refine Lands.then_bind ((finish_completing hi).lands hwritten) (fun _ h => h) ?_
        exact fun _ _ hfinished => Lands.get_bind (Lands.pure hfinished)
      · exact Lands.get_bind (Lands.pure hwritten)

theorem supersede_completing (steps position : Nat) :
    Completing s (host.supersede i steps position) := by
  induction steps generalizing position with
  | zero => exact Keeps.pure ()
  | succ steps ih =>
    refine Keeps.get_bind fun run hrun => ?_
    dsimp only
    split
    · exact Keeps.pure ()
    · next j hj =>
      have hrunning : j ∈ s.animator.running := hrun.running ▸ List.mem_of_getElem? hj
      split
      · split
        · exact Keeps.bind (finish_completing hrunning) fun _ => ih _
        · exact ih _
      · exact ih _

end StageAct

/-! ### Tweens that run -/

namespace Stage

theorem Fades.lt_size {s : Stage α} {i : Nat} {who : Leaving} {n : Nat} (h : s.Fades i who n) :
    i < s.animator.pool.size := by
  obtain ⟨slot, command, htask⟩ := h.task
  obtain ⟨tw, htw, -⟩ := Option.map_eq_some_iff.1 htask
  exact (Array.getElem?_eq_some_iff.1 htw).1

/-- What tweens do to a stage: some of those that run come to their ends, and whoever they take
    leaves. The others run on, and others yet may have begun. -/
structure Ran (s s' : Stage α) : Prop extends s.Vacates s' where
  nextNumber : s'.nextNumber = s.nextNumber
  size_le : s.animator.pool.size ≤ s'.animator.pool.size
  task : ∀ i < s.animator.pool.size, s'.animator.task? i = s.animator.task? i
  done : ∀ i < s.animator.pool.size, s.animator.isDone i → s'.animator.isDone i
  ended_running : ∀ i < s.animator.pool.size, s.animator.isDone i = false →
    s'.animator.isDone i → i ∈ s.animator.running
  running : ∀ i < s.animator.pool.size, i ∈ s'.animator.running ↔
    i ∈ s.animator.running ∧ s'.animator.isDone i = false

/-- A tween began for somebody: it ended those that ran on the same attribute. -/
structure Began (number : Nat) (slot : Slot) (ack : Acknowledgement) (s s' : Stage α) : Prop
    extends s.Ran s' where
  size : s'.animator.pool.size = s.animator.pool.size + 1
  new_task : s'.animator.task? s.animator.pool.size = some (number, slot, some ack)
  ended_iff : ∀ i ∈ s.animator.running, s'.animator.isDone i ↔
    ∃ k, s.animator.task? i = some (number, slot, k)

/-- Tweens that came to their ends are swept away. -/
theorem Completes.ran {s t s' : Stage α} (h : s.Completes t)
    (hnextNumber : s'.nextNumber = t.nextNumber) (hanimator : s'.animator = t.animator.sweep)
    (hstanding : ∀ who, s'.standing? who = t.standing? who) : s.Ran s' := by
  have hdone (i : Nat) : s'.animator.isDone i = t.animator.isDone i := by
    rw [hanimator]
    rfl
  exact {
    gone := fun i who n hfades hi => by
      rw [hdone] at hi
      rw [hstanding, h.gone i who n hfades hi]
    stays := fun who hends => by
      rw [hstanding, h.stays who fun i n hfades => hdone i ▸ hends i n hfades]
    nextNumber := hnextNumber.trans h.nextNumber
    size_le := by
      rw [hanimator]
      exact Nat.le_of_eq h.size.symm
    task := fun i _ => by
      rw [hanimator]
      exact h.task i
    done := fun i _ hi => by
      rw [hdone]
      exact h.done i hi
    ended_running := fun i _ hundone hi => h.ended_running i hundone (hdone i ▸ hi)
    running := fun i _ => by
      rw [hdone, hanimator]
      show i ∈ t.animator.running.filter _ ↔ _
      simp [List.mem_filter, h.running] }

/-- A tween that was made starts to run behind those that are not swept away. -/
theorem Completes.began {s t s' : Stage α} {new : Tween Nat Slot Acknowledgement α}
    {ack : Acknowledgement} (hack : new.onDone = some ack) (hsound : s.animator.Sound)
    (h : Stage.Completes { s with animator := s.animator.make new } t)
    (hs' : s' = { t with animator := { t.animator.sweep with
      running := t.animator.sweep.running ++ [s.animator.pool.size] } })
    (hends : ∀ i ∈ s.animator.running, t.animator.isDone i ↔
      ∃ k, s.animator.task? i = some (new.object, new.slot, k)) :
    s.Began new.object new.slot ack s' := by
  subst hs'
  have hsize : t.animator.pool.size = s.animator.pool.size + 1 :=
    h.size.trans (Array.size_push ..)
  have hmade {i : Nat} {who : Leaving} {n : Nat} :
      Stage.Fades { s with animator := s.animator.make new } i who n ↔ s.Fades i who n := by
    constructor
    · rintro ⟨hrunning, hundone, htask⟩
      have hlt := hsound.lt_size hrunning
      exact ⟨hrunning, Animator.isDone_make new hlt ▸ hundone, Animator.task?_make new hlt ▸ htask⟩
    · rintro ⟨hrunning, hundone, htask⟩
      have hlt := hsound.lt_size hrunning
      exact ⟨hrunning, (Animator.isDone_make new hlt).trans hundone,
        (Animator.task?_make new hlt).symm ▸ htask⟩
  exact {
    gone := fun i who n hfades hended => h.gone i who n (hmade.2 hfades) hended
    stays := fun who hended => h.stays who fun i n hfades => hended i n (hmade.1 hfades)
    nextNumber := h.nextNumber
    size_le := Nat.le.intro hsize.symm
    task := fun i hi => (h.task i).trans (Animator.task?_make new hi)
    done := fun i hi hbefore => h.done i ((Animator.isDone_make new hi).trans hbefore)
    ended_running := fun i hi hbefore hafter =>
      h.ended_running i ((Animator.isDone_make new hi).trans hbefore) hafter
    running := fun i hi => by
      have hne : i ≠ s.animator.pool.size := Nat.ne_of_lt hi
      have hrunning : t.animator.running = s.animator.running := h.running
      show i ∈ t.animator.running.filter (fun i => !t.animator.isDone i) ++ [_] ↔
        i ∈ s.animator.running ∧ t.animator.isDone i = false
      simp [List.mem_filter, hrunning, hne]
    size := hsize
    new_task := by
      refine (h.task _).trans ?_
      rw [Animator.task?, Animator.tween?_make, if_pos rfl, Option.map_some, hack]
    ended_iff := hends }

end Stage

namespace StageAct

variable [Scalar α] {run : StageRun α}

/-- Time passes on stage. -/
theorem update_ran (hsound : run.stage.animator.Sound)
    (hmixes : ∀ tw ∈ run.stage.animator.unfinished, tw.Mixes) (dt : α) :
    Ends (update dt) run fun _ run' => run.stage.Ran run'.stage ∧
      run'.stage.animator.pool.size = run.stage.animator.pool.size ∧
      run'.stage.animator.Sound ∧ ∀ tw ∈ run'.stage.animator.unfinished, tw.Mixes := by
  have hswept : Ends (host.update dt) run fun _ run' => ∃ t, run.stage.Completes t ∧
      run'.stage = { t with animator := t.animator.sweep } := by
    have hrun : ∀ i ∈ run.stage.animator.running, ∃ tw, (host.animator run).tween? i = some tw ∧
        tw.isDone = false ∧ tw.Mixes := by
      intro i hi
      obtain ⟨tw, htw, hundone⟩ := hsound.running i hi
      refine ⟨tw, htw, hundone, hmixes tw ?_⟩
      rw [hsound.unfinished_eq]
      exact List.mem_filterMap.2 ⟨i, hi, htw⟩
    have hloop : Completing run.stage
        (run.stage.animator.running.forM fun i => discard (host.advance i dt)) :=
      Keeps.forM fun i hi => (advance_completing hi dt).bind fun _ => Keeps.pure ()
    refine Ends.get_bind (((Host.forM_advance_ends host_quiet dt hsound.nodup hrun).and_keeps hloop
      (Stage.Completes.refl _)).then_bind fun _ run' hrun' => Ends.change ?_)
    exact ⟨run'.stage, hrun'.2, rfl⟩
  refine (hswept.and (Host.update_ends host_quiet hsound hmixes dt)).then_bind
    fun _ run' hrun' => Ends.change ?_
  obtain ⟨⟨t, hcompletes, hstage⟩, hsound', hunfinished, -⟩ := hrun'
  have hanimator : run'.stage.animator = t.animator.sweep := by rw [hstage]
  refine ⟨hcompletes.ran ?_ hanimator fun who => ?_, ?_, hsound', fun tw htw => ?_⟩
  · show run'.stage.nextNumber = _
    rw [hstage]
  · rw [hstage]
    cases who with
    | actor name => rfl
    | animation name => exact Table.map_get?_of_eq (by intro _; rfl) (by intro _; rfl) name
  · show run'.stage.animator.pool.size = _
    rw [hanimator]
    exact hcompletes.size
  · change tw ∈ run'.stage.animator.unfinished at htw
    change run'.stage.animator.unfinished = _ at hunfinished
    rw [hunfinished] at htw
    obtain ⟨tw₀, htw₀, rfl⟩ := List.mem_map.1 (List.mem_of_mem_filter htw)
    exact hmixes tw₀ htw₀

/-- A tween that begins ends those on the same attribute. -/
theorem tween_ran (hsound : run.stage.animator.Sound) {number : Nat} {slot : Slot}
    {start finish : TweenValue α} {duration : α} {ease : Ease} {ack : Acknowledgement}
    {new : Tween Nat Slot Acknowledgement α}
    (hnew : new = ⟨number, slot, start, finish, duration, ease, Scalar.zero, some ack, false⟩) :
    Ends (tween number slot start finish duration ease ack) run fun _ run' =>
      run.stage.Began number slot ack run'.stage := by
  refine Ends.view_bind (Ends.change_bind ?_)
  rw [← hnew]
  have hobject : new.object = number := by rw [hnew]
  have hslot : new.slot = slot := by rw [hnew]
  rw [← hobject, ← hslot]
  generalize hrun₁ : ({ run with
    stage := { run.stage with animator := run.stage.animator.make new } } : StageRun α) = run₁
  have hstage : run₁.stage = { run.stage with animator := run.stage.animator.make new } := by
    rw [← hrun₁]
  have hanimator : host.animator run₁ = run.stage.animator.make new :=
    congrArg Stage.animator hstage
  have hrunning : (host.animator run₁).running = run.stage.animator.running := by
    rw [hanimator]
    rfl
  refine Ends.get_bind (((Host.supersede_ends host_quiet
    (hanimator ▸ Animator.tween?_make_self new) (hanimator ▸ hsound.make new)
    (hanimator ▸ hsound.not_mem_running_make new) (by omega)).and_keeps
      (supersede_completing _ _) (Stage.Completes.refl _)).then_bind fun _ run' hrun' =>
        Ends.change ?_)
  obtain ⟨hchanges, hcompletes⟩ := hrun'
  rw [hstage] at hcompletes
  refine hcompletes.began (by rw [hnew]) hsound rfl fun i hi => ?_
  obtain ⟨tw, htw, hundone⟩ := hsound.running i hi
  have htw' : run'.stage.animator.tween? i = some (Tween.yieldTo new tw) := by
    refine (hchanges.tween? i).trans ?_
    rw [List.drop_zero, hrunning, if_pos hi, hanimator, hsound.tween?_make new hi, htw,
      Option.map_some]
  rw [Animator.isDone_of_tween? htw', Animator.task?, htw, Tween.yieldTo]
  split
  · next hsame =>
    simp only [Tween.drivesSame, Bool.and_eq_true, beq_iff_eq] at hsame
    simp [Tween.ended, hsame]
  · next hsame =>
    simp only [Tween.drivesSame, Bool.and_eq_true, beq_iff_eq] at hsame
    simpa [hundone] using hsame

/-- A tween begins. -/
theorem tween_began (hsound : run.stage.animator.Sound)
    (hmixes : ∀ tw ∈ run.stage.animator.unfinished, tw.Mixes) {number : Nat} {slot : Slot}
    {start finish : TweenValue α} {duration : α} {ease : Ease} {ack : Acknowledgement}
    (hmixes' : Tween.Mixes (⟨number, slot, start, finish, duration, ease, Scalar.zero, some ack,
      false⟩ : Tween Nat Slot Acknowledgement α)) :
    Ends (tween number slot start finish duration ease ack) run fun _ run' =>
      run.stage.Began number slot ack run'.stage ∧ run'.stage.animator.Sound ∧
      ∀ tw ∈ run'.stage.animator.unfinished, tw.Mixes := by
  refine ((tween_ran hsound rfl).and (tween_added hsound rfl)).mono fun _ run' hrun' => ?_
  obtain ⟨hbegan, hsound', hunfinished⟩ := hrun'
  refine ⟨hbegan, hsound', fun tw htw => ?_⟩
  rw [hunfinished] at htw
  rcases List.mem_append.1 htw with hold | hnew
  · obtain ⟨tw₀, htw₀, rfl⟩ := List.mem_map.1 (List.mem_of_mem_filter hold)
    unfold Tween.yieldTo
    split
    · exact hmixes tw₀ htw₀
    · exact hmixes tw₀ htw₀
  · exact List.mem_singleton.1 hnew ▸ hmixes'

end StageAct

end VisualNovel

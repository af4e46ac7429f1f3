import VisualNovel.Proofs.Stage.Effects

/-!
What time does to a stage, and what it does not. Of everything on stage, only the running effects,
the line in the box and the frames of animations depend on how much time has passed. An effect that
ends leaves its end value, whatever it showed on the way; so a stage with its effects brought to
their ends is the same before and after any time.
-/

namespace VisualNovel

open Act

/-! ### Values on the way -/

/-- Both are numbers or both are tuples. -/
def TweenValue.SameKind {α : Type} : TweenValue α → TweenValue α → Prop
  | .number _, .number _ => True
  | .tuple _, .tuple _ => True
  | _, _ => False

section Writing

variable {α : Type} {v w : TweenValue α}

theorem Actor.write_number (a : Actor α) (slot : Slot) : (a.write slot v).number = a.number := by
  cases slot <;> cases v <;> rfl

theorem Animated.write_number (a : Animated α) (slot : Slot) :
    (a.write slot v).number = a.number := by
  cases slot <;> cases v <;> rfl

/-- A value takes the place of the one before. -/
theorem Actor.write_write (h : v.SameKind w) (a : Actor α) (slot : Slot) :
    (a.write slot v).write slot w = a.write slot w := by
  cases slot <;> cases v <;> cases w <;> first | rfl | exact h.elim

theorem Animated.write_write (h : v.SameKind w) (a : Animated α) (slot : Slot) :
    (a.write slot v).write slot w = a.write slot w := by
  cases slot <;> cases v <;> cases w <;> first | rfl | exact h.elim

theorem Stage.write_write [Scalar α] (h : v.SameKind w) (s : Stage α) (number : Nat) (slot : Slot) :
    (s.write number slot v).write number slot w = s.write number slot w := by
  unfold Stage.write
  simp only [List.map_map, Stage.mk.injEq, true_and, and_true]
  refine ⟨List.map_congr_left fun (name, a) _ => ?_, List.map_congr_left fun (name, a) _ => ?_⟩
  · by_cases hnumber : a.number = number
    · simp [hnumber, Actor.write_number, Actor.write_write h]
    · simp [hnumber]
  · by_cases hnumber : a.number = number
    · simp [hnumber, Animated.write_number, Animated.write_write h]
    · simp [hnumber]

end Writing

/-! ### Stages without time -/

theorem DialogueBox.hide_update (box : DialogueBox Float) (dt : Float) :
    (box.update dt).hide = box.hide := by
  unfold DialogueBox.update
  split
  · split <;> rfl
  · rfl

/-- The animation before any time has passed. -/
def Animated.still (a : Animated Float) : Animated Float := { a with elapsed := Scalar.zero }

namespace Stage

/-- The stage without what time does to it: its effects, the line in the box, and the frames of its
    animations. -/
def still (s : Stage Float) : Stage Float :=
  { s with
    animator := {}
    box := s.box.hide
    animations := s.animations.map fun (n, a) => (n, a.still) }

/-- The stage once an effect is over. -/
def settle (s : Stage Float) (e : Effect) : Stage Float :=
  let s := s.write e.object e.slot e.finish
  match e.onDone.bind (·.leaving) with
  | some leaving => s.remove leaving
  | none => s

/-- The stage without what time does to it, once its effects are over. -/
def settled (s : Stage Float) : Stage Float := s.animator.unfinished.foldl settle s.still

/-- The effects that run: none, or a single one, which owes this command its acknowledgement. -/
def OwesOnly (s : Stage Float) : Option Int → Prop
  | none => s.animator.running = []
  | some command => ∃ i e, s.animator.running = [i] ∧ s.animator.tween? i = some e ∧
      e.isDone = false ∧ e.Mixes ∧ Effect.command? e = some command

/-- The stage without the effects that are over. -/
def swept (s : Stage Float) : Stage Float := { s with animator := s.animator.sweep }

variable {s t : Stage Float}

theorem still_still (s : Stage Float) : s.still.still = s.still := by
  unfold still
  simp only [List.map_map, Stage.mk.injEq, true_and, and_true]
  exact ⟨rfl, rfl⟩

theorem still_write (s : Stage Float) (number : Nat) (slot : Slot) (v : TweenValue Float) :
    (s.write number slot v).still = s.still.write number slot v := by
  unfold still write
  simp only [List.map_map, Stage.mk.injEq, true_and, and_true]
  refine List.map_congr_left fun (name, a) _ => ?_
  simp only [Function.comp_apply, Prod.mk.injEq, true_and]
  have hnumber : a.still.number = a.number := rfl
  rw [hnumber]
  split
  · cases slot <;> cases v <;> rfl
  · rfl

theorem still_remove (s : Stage Float) (leaving : Leaving) :
    (s.remove leaving).still = s.still.remove leaving := by
  cases leaving with
  | actor name => rfl
  | animation name =>
    unfold still remove Table.erase
    simp only [List.filter_map, Stage.mk.injEq, true_and, and_true]
    rfl

theorem still_settle (s : Stage Float) (e : Effect) : (s.settle e).still = s.still.settle e := by
  unfold settle
  dsimp only
  split
  · rw [still_remove, still_write]
  · rw [still_write]

theorem settle_box (s : Stage Float) (e : Effect) : (s.settle e).box = s.box := by
  unfold settle
  dsimp only
  split
  · next leaving _ => cases leaving <;> rfl
  · rfl

theorem unfinished_of_running_eq_nil (h : s.animator.running = []) :
    s.animator.unfinished = [] := by
  rw [Animator.unfinished, h, List.filterMap_nil]

theorem unfinished_of_running_eq_singleton {i : Nat} {e : Effect} (h : s.animator.running = [i])
    (he : s.animator.tween? i = some e) (hdone : e.isDone = false) :
    s.animator.unfinished = [e] := by
  rw [Animator.unfinished, h]
  simp [he, hdone, Option.filter]

theorem swept_running {i : Nat} {e : Effect} (h : s.animator.running = [i])
    (he : s.animator.tween? i = some e) :
    s.swept.animator.running = if e.isDone then [] else [i] := by
  have hisDone : s.animator.isDone i = e.isDone := by simp [Animator.isDone, he]
  unfold swept Animator.sweep
  cases hdone : e.isDone <;> simp [h, hisDone, hdone]

theorem settled_of_running_eq_nil (h : s.animator.running = []) : s.settled = s.still := by
  rw [settled, unfinished_of_running_eq_nil h, List.foldl_nil]

theorem settled_of_running_eq_singleton {i : Nat} {e : Effect} (h : s.animator.running = [i])
    (he : s.animator.tween? i = some e) (hdone : e.isDone = false) :
    s.settled = s.still.settle e := by
  rw [settled, unfinished_of_running_eq_singleton h he hdone, List.foldl_cons, List.foldl_nil]

end Stage

/-! ### Time -/

/-- The value of an effect on its way is of the kind of its end. -/
theorem Effect.sameKind_of_value? {e : Effect} {v : TweenValue Float} (hv : e.value? = some v) :
    v.SameKind e.finish := by
  unfold Tween.value? TweenValue.between? at hv
  split at hv
  · next hfinish =>
    cases hv
    rw [hfinish]
    trivial
  · next hfinish =>
    cases hv
    rw [hfinish]
    trivial
  · cases hv

/-- An effect that still runs, a moment later. -/
def Effect.later (e : Effect) (dt : Float) : Effect :=
  { e with elapsed := e.elapsed + dt, isDone := false }

/-- A frame of a single effect writes a value on the way. The effect runs on, and the stage that it
    leads to stays the same. -/
theorem Stage.frame_settles {s s' : Stage Float} {i : Nat} {e : Effect} {v : TweenValue Float}
    {dt : Float} (he : s.animator.tween? i = some e) (hrunning : s.animator.running = [i])
    (hdone : e.isDone = false) (hv : (e.later dt).value? = some v)
    (hs' : s' = { s.write e.object e.slot v with
      animator := s.animator.change i fun _ => e.later dt }) :
    s'.animator.tween? i = some (e.later dt) ∧ s'.animator.running = [i] ∧
      s'.still.settle (e.later dt) = s.settled := by
  have hkind : v.SameKind (e.later dt).finish := Effect.sameKind_of_value? hv
  have hsettled : (s.write e.object e.slot v).settle (e.later dt) = s.settle e := by
    unfold settle
    unfold Effect.later at hkind ⊢
    simp only [write_write hkind]
  refine ⟨?_, ?_, ?_⟩
  · rw [hs']
    show (s.animator.change i fun _ => e.later dt).tween? i = _
    rw [Animator.tween?_change, if_pos rfl, he, Option.map_some]
  · rw [hs']
    exact hrunning
  · rw [settled_of_running_eq_singleton hrunning he hdone, ← still_settle, ← still_settle,
      ← hsettled, still_settle, still_settle, hs']
    rfl

namespace StageAct

variable {run : StageRun Float}

/-- An effect that is brought to its end: its end value is written, somebody may leave, and the
    command is acknowledged. -/
theorem finish_settles {i : Nat} {e : Effect} {command : Int}
    (he : run.stage.animator.tween? i = some e) (hdone : e.isDone = false)
    (hcommand : Effect.command? e = some command) :
    Ends (host.finish i) run fun _ run' =>
      run'.stage = { run.stage.settle e with
        animator := run.stage.animator.change i fun tw => { tw with isDone := true } } ∧
      run'.signals = run.signals ++ [.completed command] := by
  obtain ⟨⟨leaving, k⟩, hack, rfl⟩ := Option.map_eq_some_iff.1 hcommand
  have htween : (host.animator run).tween? i = some e := he
  refine Ends.get_bind ?_
  simp only [htween, hdone, Bool.false_eq_true, if_false]
  refine Ends.change_bind ?_
  simp only [hack]
  cases leaving with
  | none => exact ⟨(), _, rfl, by simp [Stage.settle, hack]; rfl, rfl⟩
  | some leaving =>
    cases leaving with
    | actor name => exact ⟨(), _, rfl, by simp [Stage.settle, hack]; rfl, rfl⟩
    | animation name => exact ⟨(), _, rfl, by simp [Stage.settle, hack]; rfl, rfl⟩

/-- A single effect that runs for a time: it is settled the same way before and after, and it is
    over, then with its acknowledgement, or still owes that. -/
theorem advance_settles {i : Nat} {e : Effect} {command : Int}
    (he : run.stage.animator.tween? i = some e) (hrunning : run.stage.animator.running = [i])
    (hdone : e.isDone = false) (hmixes : e.Mixes) (hcommand : Effect.command? e = some command)
    (dt : Float) :
    Ends (host.advance i dt) run fun _ run' =>
      run'.stage.swept.settled = run.stage.settled ∧
        run'.stage.box = run.stage.box ∧
        ((run'.stage.swept.OwesOnly (some command) ∧ run'.signals = run.signals) ∨
          run'.stage.swept.OwesOnly none ∧
            run'.signals = run.signals ++ [.completed command]) := by
  have hmixes' : (e.later dt).Mixes := hmixes
  have hdone' : (e.later dt).isDone = false := rfl
  have hcommand' : Effect.command? (e.later dt) = some command := hcommand
  obtain ⟨v, hv⟩ := hmixes'.value?
  have htween : (host.animator run).tween? i = some e := he
  have hlater : { e with elapsed := e.elapsed + dt, isDone := false } = e.later dt := rfl
  refine Ends.get_bind ?_
  simp only [htween, hdone, Bool.false_eq_true, if_false, hlater]
  refine Ends.change_bind ?_
  simp only [hv]
  refine Ends.change_bind ?_
  generalize hrun₁ : host.write e.object e.slot v
    (host.modify (fun a => a.change i fun _ => e.later dt) run) = run₁
  have hstage₁ : run₁.stage = { run.stage.write e.object e.slot v with
      animator := run.stage.animator.change i fun _ => e.later dt } := by
    rw [← hrun₁]
    rfl
  have hsignals₁ : run₁.signals = run.signals := by rw [← hrun₁]; rfl
  obtain ⟨htween₁, hrunning₁, hpath⟩ := Stage.frame_settles he hrunning hdone hv hstage₁
  generalize e.later dt = e' at *
  cases hover : e'.isOver with
  | false =>
    have hswept₁ : run₁.stage.swept.animator.running = [i] := by
      rw [Stage.swept_running hrunning₁ htween₁, hdone']
      rfl
    simp only [Bool.false_eq_true, if_false]
    refine Ends.get_bind (Ends.pure ⟨?_, ?_, .inl ⟨⟨i, e', ?_⟩, hsignals₁⟩⟩)
    · rw [Stage.settled_of_running_eq_singleton hswept₁ htween₁ hdone', ← hpath]
      rfl
    · rw [hstage₁]
      rfl
    · exact ⟨hswept₁, htween₁, hdone', hmixes', hcommand'⟩
  | true =>
    simp only [if_true]
    refine (finish_settles htween₁ hdone' hcommand').then_bind fun _ run' hrun' => ?_
    obtain ⟨hstage', hsignals'⟩ := hrun'
    have htween' : run'.stage.animator.tween? i = some { e' with isDone := true } := by
      rw [hstage']
      show (run₁.stage.animator.change i _).tween? i = _
      rw [Animator.tween?_change, if_pos rfl, htween₁, Option.map_some]
    have hrunning' : run'.stage.animator.running = [i] := by
      rw [hstage']
      exact hrunning₁
    have hswept' : run'.stage.swept.animator.running = [] := Stage.swept_running hrunning' htween'
    refine Ends.get_bind (Ends.pure ⟨?_, ?_, .inr ⟨hswept', ?_⟩⟩)
    · rw [Stage.settled_of_running_eq_nil hswept', ← hpath, ← Stage.still_settle, hstage']
      rfl
    · rw [hstage']
      show (run₁.stage.settle e').box = _
      rw [Stage.settle_box, hstage₁]
      rfl
    · rw [hsignals', hsignals₁]

/-- What time makes of a stage and of the signals given: the stage is settled as before, and the
    effect still owes its acknowledgement, or has given it. -/
structure Passes (owed : Option Int) (run run' : StageRun Float) : Prop where
  settled_eq : run'.stage.settled = run.stage.settled
  owes : (run'.stage.OwesOnly owed ∧ run'.signals = run.signals) ∨
    ∃ command, owed = some command ∧ run'.stage.OwesOnly none ∧
      run'.signals = run.signals ++ [.completed command]

theorem hostUpdate_passes {owed : Option Int} (h : run.stage.OwesOnly owed) (dt : Float) :
    Ends (host.update dt) run fun _ run' =>
      Passes owed run run' ∧ run'.stage.box = run.stage.box := by
  refine Ends.get_bind ?_
  cases owed with
  | none =>
    have hrunning : (host.animator run).running = [] := h
    have hswept : run.stage.swept.animator.running = [] := by
      show run.stage.animator.running.filter _ = []
      rw [h, List.filter_nil]
    rw [hrunning]
    refine Ends.bind (Ends.pure (Ends.change ⟨⟨?_, .inl ⟨hswept, rfl⟩⟩, rfl⟩))
    rw [Stage.settled_of_running_eq_nil h]
    exact Stage.settled_of_running_eq_nil hswept
  | some command =>
    obtain ⟨i, e, hi, he, hdone, hmixes, hcommand⟩ := h
    have hrunning : (host.animator run).running = [i] := hi
    rw [hrunning]
    refine Ends.bind (Ends.bind (Ends.discard ?_))
    refine (advance_settles he hi hdone hmixes hcommand dt).mono fun _ run' hrun' => ?_
    obtain ⟨hsettled, hbox, howes⟩ := hrun'
    refine Ends.pure (Ends.change ⟨⟨hsettled, ?_⟩, hbox⟩)
    rcases howes with howes | hsettles
    · exact .inl howes
    · exact .inr ⟨command, rfl, hsettles⟩

/-- Time passes on a stage with at most one effect. -/
theorem update_passes {owed : Option Int} (h : run.stage.OwesOnly owed) (dt : Float) :
    Ends (update dt) run fun _ run' =>
      Passes owed run run' ∧ run'.stage.box = run.stage.box.update dt := by
  refine (hostUpdate_passes h dt).then_bind fun _ run' hrun' => Ends.change ?_
  obtain ⟨⟨hsettled, howes⟩, hbox⟩ := hrun'
  refine ⟨⟨?_, howes⟩, by rw [← hbox]⟩
  rw [← hsettled]
  have hstill (s : Stage Float) : Stage.still { s with
      box := s.box.update dt
      animations := s.animations.map fun (n, a) => (n, { a with elapsed := a.elapsed + dt }) } =
        s.still := by
    unfold Stage.still
    simp only [DialogueBox.hide_update, List.map_map, Stage.mk.injEq, true_and, and_true]
    rfl
  unfold Stage.settled
  rw [hstill]

end StageAct

end VisualNovel

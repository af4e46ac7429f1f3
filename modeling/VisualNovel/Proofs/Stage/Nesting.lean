import Mathlib.Algebra.GroupWithZero.Nat
import VisualNovel.Proofs.Stage.Rehearsing

/-!
How deep callbacks nest. An operation that is played was either given or owed at the end of a tween
that is done now, so the operations still to come only get fewer. The number of operations of a
sheet is therefore depth enough to play it, and enough for the look-through before a tween begins:
with more of either a rehearsal goes the same way. Main statement: `rehearse_deeper`.
-/

namespace VisualNovel

theorem CueOp.size_make {α : Type} (runs : Bool) (name object slot : String)
    (start finish : TweenValue α) (duration : α) (ease : Ease) (elapsed : α)
    (followUp : Option (List (CueOp α))) :
    (CueOp.make runs name object slot start finish duration ease elapsed followUp).size =
      1 + (followUp.map sizes).getD 0 := by
  cases followUp <;> simp [CueOp.size]

theorem CueOp.size_pos {α : Type} (op : CueOp α) : 0 < op.size := by
  cases op with
  | make =>
    rw [size_make]
    omega
  | _ => simp [CueOp.size]

namespace CueSheet

open Act

variable {α β γ : Type}

/-! ### What is owed -/

/-- The operations that a tween owes: those to be played at its end. -/
def owes (tw : Motion α) : Nat :=
  if tw.isDone then 0 else (tw.onDone.map fun ending => sizes ending.ops).getD 0

/-- The operations that all tweens of a board owe. -/
def Board.owed (b : Board α) : Nat := (b.animator.pool.toList.map owes).sum

theorem sum_map_modify {xs : List γ} {i : Nat} {x : γ} (h : xs[i]? = some x) (f : γ → γ)
    (g : γ → Nat) : ((xs.modify i f).map g).sum + g x = (xs.map g).sum + g (f x) := by
  induction xs generalizing i with
  | nil => cases h
  | cons y ys ih =>
    cases i with
    | zero =>
      cases h
      simp only [List.modify_zero_cons, List.map_cons, List.sum_cons]
      omega
    | succ i =>
      have hrest := ih h
      simp only [List.modify_succ_cons, List.map_cons, List.sum_cons]
      omega

section

variable {b : Board α} {i : Nat} {tw : Motion α} {f : Motion α → Motion α}

theorem Board.owed_change (htw : b.animator.tween? i = some tw) :
    (b.withAnimator (·.change i f)).owed + owes tw = b.owed + owes (f tw) := by
  unfold owed withAnimator Animator.change
  rw [Array.toList_modify]
  exact sum_map_modify (Array.getElem?_toList ▸ htw) f owes

theorem Board.owed_make (name : String) : (b.make name tw).owed = b.owed + owes tw := by
  simp [owed, make, Animator.make]

theorem Board.owed_conclude (calls : List Call) (htw : b.animator.tween? i = some tw) :
    (b.conclude calls i tw).owed + owes tw = b.owed := by
  have hgave : (b.give calls tw tw.finish).animator.tween? i = some tw := htw
  have hended := owed_change (f := Tween.ended) hgave
  unfold conclude
  split <;> exact hended

end

/-- There is room on the board for so many operations more: with what is owed they are no more than
    `depth`, and even if each of them adds a tween, no more than `most` run. -/
def Board.HasRoom (depth most more : Nat) (b : Board α) : Prop :=
  b.owed + more ≤ depth ∧ b.animator.running.length + b.owed + more ≤ most

theorem Board.HasRoom.mono {depth depth' most most' more more' : Nat} {b : Board α}
    (h : b.HasRoom depth most more) (hdepth : depth + more' ≤ depth' + more)
    (hmost : most + more' ≤ most' + more) : b.HasRoom depth' most' more' := by
  obtain ⟨hle, hle'⟩ := h
  exact ⟨by omega, by omega⟩

namespace Board.HasRoom

variable {depth most more : Nat} {b : Board α}

theorem of_owed_le {b' : Board α} (h : b.HasRoom depth most more) (howed : b'.owed ≤ b.owed)
    (hrunning : b'.animator.running.length ≤ b.animator.running.length) :
    b'.HasRoom depth most more := by
  obtain ⟨hle, hle'⟩ := h
  exact ⟨by omega, by omega⟩

/-- A tween that is made owes what its making was to leave to it. -/
theorem make {tw : Motion α} {size : Nat} (h : b.HasRoom depth most (1 + size + more))
    (name : String) (howes : owes tw = size) :
    (b.make name tw).HasRoom depth most (1 + more) := by
  have howed : (b.make name tw).owed = b.owed + owes tw := Board.owed_make name
  have hrunning : (b.make name tw).animator.running = b.animator.running := rfl
  obtain ⟨hle, hle'⟩ := h
  refine ⟨by omega, ?_⟩
  rw [hrunning]
  omega

theorem sweep (h : b.HasRoom depth most more) :
    (b.withAnimator Animator.sweep).HasRoom depth most more :=
  h.of_owed_le (Nat.le_refl _) (List.length_filter_le _ _)

theorem start (h : b.HasRoom depth most more) (calls : List Call) (i : Nat) :
    (b.start calls i).HasRoom depth (most + 1) more := by
  have hrunning : (b.start calls i).animator.running.length ≤ b.animator.running.length + 1 := by
    show (b.animator.sweep.running ++ [i]).length ≤ _
    rw [List.length_append]
    exact Nat.add_le_add_right (List.length_filter_le _ _) 1
  have howed : (b.start calls i).owed = b.owed := rfl
  obtain ⟨hle, hle'⟩ := h
  exact ⟨by omega, by omega⟩

end Board.HasRoom

/-! ### Two ways to play -/

/-- From this board the two computations do the same, do not fail for want of depth, and leave a
    board of which `Q` holds. -/
def Alike (Q : Board α → Prop) (a a' : Playing α β) (b : Board α) : Prop :=
  a.outcome b = a'.outcome b ∧ Q (a.outcome b).2 ∧ (a.outcome b).1 ≠ .error .tooDeep

namespace Alike

variable {Q : Board α → Prop} {b : Board α}

protected theorem pure {x : β} (h : Q b) : Alike Q (pure x) (pure x) b :=
  ⟨rfl, h, fun heq => by cases heq⟩

protected theorem throw {e : Failure} (he : e ≠ .tooDeep) (h : Q b) :
    Alike Q (throw e : Playing α β) (throw e) b :=
  ⟨rfl, h, fun heq => by cases heq; exact he rfl⟩

theorem mono {a a' : Playing α β} {R : Board α → Prop} (h : Alike Q a a' b)
    (hR : ∀ b', Q b' → R b') : Alike R a a' b :=
  ⟨h.1, hR _ h.2.1, h.2.2⟩

protected theorem bind {a a' : Playing α γ} {f f' : γ → Playing α β} {R : Board α → Prop}
    (ha : Alike R a a' b) (hR : ∀ b', R b' → Q b') (hf : ∀ x b', R b' → Alike Q (f x) (f' x) b') :
    Alike Q (a >>= f) (a' >>= f') b := by
  obtain ⟨heq, hland, hdeep⟩ := ha
  unfold Alike
  rw [outcome_bind, outcome_bind, ← heq]
  match h : a.outcome b with
  | (.ok x, b') =>
    rw [h] at hland
    exact hf x b' hland
  | (.error e, b') =>
    rw [h] at hland hdeep
    exact ⟨rfl, hR b' hland, fun he => hdeep (by cases he; rfl)⟩

theorem get_bind {f f' : Board α → Playing α β} (h : Alike Q (f b) (f' b) b) :
    Alike Q (get >>= f) (get >>= f') b := h

theorem change {f : Board α → Board α} (h : Q (f b)) :
    Alike Q (Act.change f : Playing α Unit) (Act.change f) b :=
  ⟨rfl, h, fun heq => by cases heq⟩

theorem change_bind {f : Board α → Board α} {g g' : Unit → Playing α β}
    (h : Alike Q (g ()) (g' ()) (f b)) : Alike Q (Act.change f >>= g) (Act.change f >>= g') b := h

protected theorem discard {a a' : Playing α β} (h : Alike Q a a' b) :
    Alike Q (discard a) (discard a') b :=
  Alike.bind h (fun _ => id) fun _ _ => Alike.pure

protected theorem forM {xs : List γ} {f f' : γ → Playing α Unit} (hb : Q b)
    (hf : ∀ x b', Q b' → Alike Q (f x) (f' x) b') : Alike Q (xs.forM f) (xs.forM f') b := by
  induction xs generalizing b with
  | nil => exact Alike.pure hb
  | cons x xs ih => exact Alike.bind (hf x b hb) (fun _ => id) fun _ b' hb' => ih hb'

end Alike

/-- Two ways to play the operations of tweens that end are alike wherever there is room for those
    operations. -/
def ReactAlike (depth : Nat) (react react' : List (CueOp α) → Playing α Unit) : Prop :=
  ∀ ops depth' most more b, depth' ≤ depth → Board.HasRoom depth' most (sizes ops + more) b →
    Alike (Board.HasRoom depth' most more) (react ops) (react' ops) b

section Animator

variable {calls : List Call} {react react' : List (CueOp α) → Playing α Unit}
  {slack slack' depth depth' most more i : Nat} {b : Board α}

theorem finish_alike (hreact : ReactAlike depth react react') (hdepth : depth' ≤ depth)
    (hb : b.HasRoom depth' most more) :
    Alike (Board.HasRoom depth' most more) ((host calls react slack).finish i)
      ((host calls react' slack').finish i) b := by
  unfold Alike
  cases hdone : b.animator.isDone i with
  | true =>
    rw [outcome_finish_of_isDone hdone, outcome_finish_of_isDone hdone]
    exact ⟨rfl, hb, fun heq => by cases heq⟩
  | false =>
    obtain ⟨tw, htw, hopen⟩ := Animator.exists_tween?_of_isDone_eq_false hdone
    rw [outcome_finish htw hopen, outcome_finish htw hopen]
    have howed := b.owed_conclude calls htw
    have hrunning := b.running_conclude calls i tw
    unfold reaction
    split
    · next ending honDone =>
      have howes : owes tw = sizes ending.ops := by simp [owes, hopen, honDone]
      refine hreact ending.ops depth' most more _ hdepth ?_
      unfold Board.HasRoom at hb ⊢
      rw [hrunning]
      omega
    · refine Alike.pure ?_
      unfold Board.HasRoom at hb ⊢
      rw [hrunning]
      omega

/-- The look-through is over once it is past the tweens that run. -/
theorem outcome_supersede_of_eq_none {steps position : Nat}
    (h : b.animator.running[position]? = none) :
    ((host calls react slack).supersede i steps position).outcome b = (.ok (), b) := by
  cases steps with
  | zero => rfl
  | succ steps =>
    unfold Host.supersede
    rw [outcome_bind, outcome_get]
    simp only [host_animator, h, outcome_pure]

/-- The look-through comes past the tweens that run if it may take as many steps as tweens can run
    then: further steps change nothing. -/
theorem supersede_alike (hreact : ReactAlike depth react react') (hdepth : depth' ≤ depth)
    (hb : b.HasRoom depth' most more) {steps steps' position : Nat}
    (hsteps : most ≤ steps + position + more) (hsteps' : most ≤ steps' + position + more) :
    Alike (Board.HasRoom depth' most more)
      ((host calls react slack).supersede i steps position)
      ((host calls react' slack').supersede i steps' position) b := by
  induction steps generalizing steps' position b with
  | zero =>
    have hpast : b.animator.running[position]? = none := by
      rw [List.getElem?_eq_none_iff]
      have := hb.2
      omega
    unfold Alike
    rw [outcome_supersede_of_eq_none hpast, outcome_supersede_of_eq_none hpast]
    exact ⟨rfl, hb, fun heq => by cases heq⟩
  | succ steps ih =>
    cases hj : b.animator.running[position]? with
    | none =>
      unfold Alike
      rw [outcome_supersede_of_eq_none hj, outcome_supersede_of_eq_none hj]
      exact ⟨rfl, hb, fun heq => by cases heq⟩
    | some j =>
      obtain ⟨hlt, -⟩ := List.getElem?_eq_some_iff.1 hj
      have hroom := hb.2
      obtain ⟨rest, rfl⟩ : ∃ rest, steps' = rest + 1 := ⟨steps' - 1, by omega⟩
      have hnext (b' : Board α) (hb' : b'.HasRoom depth' most more) :
          Alike (Board.HasRoom depth' most more)
            ((host calls react slack).supersede i steps (position + 1))
            ((host calls react' slack').supersede i rest (position + 1)) b' :=
        ih hb' (by omega) (by omega)
      refine Alike.get_bind ?_
      simp only [host_animator, hj]
      split
      · split
        · exact Alike.bind (finish_alike hreact hdepth hb) (fun _ => id) fun _ => hnext
        · exact hnext b hb
      · exact hnext b hb

theorem start_alike (hreact : ReactAlike depth react react') (hdepth : depth' ≤ depth)
    (hslack : depth ≤ slack) (hslack' : depth ≤ slack') (hb : b.HasRoom depth' most more) :
    Alike (Board.HasRoom depth' (most + 1) more) (start calls react slack i)
      (start calls react' slack' i) b := by
  -- No more tweens than this run before the new one does.
  obtain ⟨mostNow, hmostNow⟩ : ∃ n, n = b.animator.running.length + b.owed + more := ⟨_, rfl⟩
  have hroom : b.HasRoom depth' mostNow more := ⟨hb.1, Nat.le_of_eq hmostNow.symm⟩
  have howed := hb.1
  have hmost := hb.2
  have hsupersede : Alike (Board.HasRoom depth' mostNow more)
      ((host calls react slack).supersede i (b.animator.running.length + slack) 0)
      ((host calls react' slack').supersede i (b.animator.running.length + slack') 0) b :=
    supersede_alike hreact hdepth hroom (by omega) (by omega)
  obtain ⟨heq, hland, hdeep⟩ := hsupersede
  unfold Alike
  rw [outcome_start, outcome_start, ← heq]
  match h : ((host calls react slack).supersede i (b.animator.running.length + slack) 0).outcome b
    with
  | (.ok _, b') =>
    rw [h] at hland
    exact ⟨rfl, (hland.mono (by omega) (by omega)).start calls i, fun he => by cases he⟩
  | (.error e, b') =>
    rw [h] at hland hdeep
    exact ⟨rfl, hland.mono (by omega) (by omega), fun he => hdeep (by cases he; rfl)⟩

/-- Tweens that run for a time or go to their ends, one after the other, and are swept away. -/
theorem forM_sweep_alike {f f' : Nat → Playing α Unit} {is : List Nat}
    (hb : b.HasRoom depth' most more)
    (hf : ∀ i b', Board.HasRoom depth' most more b' →
      Alike (Board.HasRoom depth' most more) (f i) (f' i) b') :
    Alike (Board.HasRoom depth' most more)
      (is.forM f >>= fun _ => change (Board.withAnimator Animator.sweep))
      (is.forM f' >>= fun _ => change (Board.withAnimator Animator.sweep)) b :=
  Alike.bind (Alike.forM hb hf) (fun _ => id) fun _ _ hb' => Alike.change hb'.sweep

theorem finishAll_alike (hreact : ReactAlike depth react react') (hdepth : depth' ≤ depth)
    (hb : b.HasRoom depth' most more) :
    Alike (Board.HasRoom depth' most more) ((host calls react slack).finishAll)
      ((host calls react' slack').finishAll) b :=
  Alike.get_bind (forM_sweep_alike hb fun _ _ => finish_alike hreact hdepth)

theorem number_alike {Q : Board α → Prop} (hb : Q b) (name : String) :
    Alike Q (number name) (number name) b := by
  refine Alike.get_bind ?_
  split
  · exact Alike.pure hb
  · exact Alike.throw (fun heq => by cases heq) hb

theorem require_alike {Q : Board α → Prop} (hb : Q b) (object : String) :
    Alike Q (require object) (require object) b := by
  refine Alike.get_bind ?_
  split
  · exact Alike.throw (fun heq => by cases heq) hb
  · exact Alike.pure hb

/-- Operations are played one after the other, while there is room for those that are left. -/
theorem forM_alike {f f' : CueOp α → Playing α Unit} {ops : List (CueOp α)}
    (hf : ∀ op more b, Board.HasRoom depth most (op.size + more) b →
      Alike (Board.HasRoom depth most more) (f op) (f' op) b)
    (hb : b.HasRoom depth most (sizes ops + more)) :
    Alike (Board.HasRoom depth most more) (ops.forM f) (ops.forM f') b := by
  induction ops generalizing b with
  | nil => exact Alike.pure (hb.mono (by simp [sizes]) (by simp [sizes]))
  | cons op ops ih =>
    rw [sizes, Nat.add_assoc] at hb
    exact Alike.bind (hf op (sizes ops + more) b hb) (fun b' hb' => hb'.mono (by omega) (by omega))
      fun _ b' hb' => ih hb'

section Time

variable [Scalar α]

theorem advance_alike (hreact : ReactAlike depth react react') (hdepth : depth' ≤ depth)
    (hb : b.HasRoom depth' most more) (dt : α) :
    Alike (Board.HasRoom depth' most more) ((host calls react slack).advance i dt)
      ((host calls react' slack').advance i dt) b := by
  unfold Alike
  cases hdone : b.animator.isDone i with
  | true =>
    rw [outcome_advance_of_isDone hdone, outcome_advance_of_isDone hdone]
    exact ⟨rfl, hb, fun heq => by cases heq⟩
  | false =>
    obtain ⟨tw, htw, hopen⟩ := Animator.exists_tween?_of_isDone_eq_false hdone
    rw [outcome_advance htw hopen, outcome_advance htw hopen]
    have hlater : (b.withAnimator (·.change i (later dt))).HasRoom depth' most more := by
      have howed := Board.owed_change (f := later dt) htw
      have hsame : owes (later dt tw) = owes tw := rfl
      exact hb.of_owed_le (by omega) (Nat.le_refl _)
    split
    · exact ⟨rfl, hlater, fun heq => by cases heq⟩
    · next value _ =>
      have hisDone {b' : Board α} (hb' : b'.HasRoom depth' most more) :
          Alike (Board.HasRoom depth' most more)
            (do return (← get).animator.isDone i : Playing α Bool)
            (do return (← get).animator.isDone i) b' := Alike.get_bind (Alike.pure hb')
      show Alike (Board.HasRoom depth' most more) _ _ _
      split
      · exact Alike.bind (finish_alike hreact hdepth hlater) (fun _ => id) fun _ _ => hisDone
      · exact hisDone hlater

theorem update_alike (hreact : ReactAlike depth react react') (hdepth : depth' ≤ depth)
    (hb : b.HasRoom depth' most more) (dt : α) :
    Alike (Board.HasRoom depth' most more) ((host calls react slack).update dt)
      ((host calls react' slack').update dt) b :=
  Alike.get_bind (forM_sweep_alike hb fun _ _ hb' =>
    Alike.discard (advance_alike hreact hdepth hb' dt))

/-! ### What is played -/

/-- What an operation does once it has begun: it is one itself, and those that follow it it either
    plays or leaves to a tween. -/
theorem carryOut_alike (hreact : ReactAlike depth react react') (hdepth : depth' ≤ depth)
    (hslack : depth ≤ slack) (hslack' : depth ≤ slack') (op : CueOp α)
    (hb : b.HasRoom (depth' + 1) (most + 1) (op.size + more)) :
    Alike (Board.HasRoom (depth' + 1) (most + 1) more) (carryOut calls react slack op)
      (carryOut calls react' slack' op) b := by
  have hover : ∀ b' : Board α, b'.HasRoom (depth' + 1) (most + 1) (op.size + more) →
      b'.HasRoom (depth' + 1) (most + 1) more := fun b' hb' => hb'.mono (by omega) (by omega)
  have hplain : ∀ b' : Board α, b'.HasRoom depth' most more →
      b'.HasRoom (depth' + 1) (most + 1) more := fun b' hb' => hb'.mono (by omega) (by omega)
  have hstarted : ∀ b' : Board α, b'.HasRoom depth' (most + 1) more →
      b'.HasRoom (depth' + 1) (most + 1) more := fun b' hb' => hb'.mono (by omega) (by omega)
  have hroom : ∀ b' : Board α, b'.HasRoom (depth' + 1) (most + 1) (op.size + more) →
      b'.HasRoom depth' most more := fun b' hb' =>
    hb'.mono (by have := op.size_pos; omega) (by have := op.size_pos; omega)
  have hpure {b' : Board α} (x : Option Bool) (hb' : b'.HasRoom depth' most more) :
      Alike (Board.HasRoom (depth' + 1) (most + 1) more) (pure x) (pure x) b' :=
    Alike.pure (hplain b' hb')
  cases op with
  | make runs name object slot first last duration ease elapsed followUp =>
    refine Alike.bind (require_alike hb object) hover fun _ b' hb' => ?_
    refine Alike.get_bind (Alike.change_bind ?_)
    have hmade : (b'.make name
        { object := ⟨object, b'.animator.pool.size⟩, slot, start := first, finish := last, duration
          ease, elapsed, onDone := followUp.map fun ops => ⟨b'.animator.pool.size, name, ops⟩ :
          Motion α }).HasRoom depth' most more := by
      rw [CueOp.size_make] at hb'
      refine (hb'.make name ?_).mono (by omega) (by omega)
      cases followUp <;> rfl
    split
    · exact (start_alike hreact hdepth hslack hslack' hmade).mono hstarted
    · exact hpure none hmade
  | start name =>
    refine Alike.bind (number_alike hb name) hover fun i b' hb' => ?_
    exact (start_alike hreact hdepth hslack hslack' (hroom b' hb')).mono hstarted
  | update dt =>
    exact Alike.bind (update_alike hreact hdepth (hroom b hb) dt) hplain fun _ _ => hpure none
  | updateOne name dt =>
    refine Alike.bind (number_alike hb name) hover fun i b' hb' => ?_
    exact Alike.bind (advance_alike hreact hdepth (hroom b' hb') dt) hplain fun done _ =>
      hpure (some done)
  | finish name =>
    refine Alike.bind (number_alike hb name) hover fun i b' hb' => ?_
    exact Alike.bind (finish_alike hreact hdepth (hroom b' hb')) hplain fun _ _ => hpure none
  | finishAll =>
    exact Alike.bind (finishAll_alike hreact hdepth (hroom b hb)) hplain fun _ _ => hpure none
  | cancel object =>
    refine Alike.bind (require_alike hb object) hover fun _ b' hb' => ?_
    refine Alike.get_bind (Alike.change_bind (Alike.change_bind ?_))
    exact hpure none ((hroom b' hb').of_owed_le (Nat.le_refl _) (List.length_filter_le _ _))

/-- With enough depth an operation is played the same way as with more of it. -/
theorem play_alike (op : CueOp α) {more' : Nat} (hdepth : depth' ≤ depth)
    (hb : b.HasRoom depth' most (op.size + more)) :
    Alike (Board.HasRoom depth' most more) (play depth calls op)
      (play (depth + more') calls op) b := by
  induction depth generalizing calls op depth' most more b with
  | zero =>
    have := op.size_pos
    have := hb.1
    omega
  | succ depth ih =>
    have hpos := op.size_pos
    have howed := hb.1
    have hmost := hb.2
    obtain ⟨depth', rfl⟩ : ∃ n, depth' = n + 1 := ⟨depth' - 1, by omega⟩
    obtain ⟨most, rfl⟩ : ∃ n, most = n + 1 := ⟨most - 1, by omega⟩
    rw [Nat.succ_add]
    refine Alike.get_bind (Alike.change_bind ?_)
    refine carryOut_alike (fun ops d m k b' hd hb' => ?_) (Nat.le_of_succ_le_succ hdepth)
      (Nat.le_refl _) (Nat.le_add_right _ _) op hb
    exact forM_alike (fun o k b' hb' => Alike.discard (ih o hd hb')) hb'

end Time

end Animator

/-! ### Rehearsals -/

theorem go_alike [Scalar α] {ops more rest : List (CueOp α)} {b : Board α}
    (hle : sizes ops ≤ sizes more) (hb : b.owed + sizes rest ≤ sizes ops) :
    rehearse.go more b rest = rehearse.go ops b rest ∧
      ∀ outcome ∈ rehearse.go ops b rest, outcome.1 ≠ .error .tooDeep := by
  induction rest generalizing b with
  | nil => exact ⟨rfl, fun outcome h => by cases h⟩
  | cons op rest ih =>
    obtain ⟨k, hk⟩ : ∃ k, sizes more + 1 = sizes ops + 1 + k :=
      ⟨sizes more - sizes ops, by omega⟩
    have hroom : b.HasRoom (sizes ops) (b.animator.running.length + sizes ops)
        (op.size + sizes rest) := by
      rw [sizes] at hb
      exact ⟨hb, by omega⟩
    have hplay : Alike (Board.HasRoom (sizes ops) (b.animator.running.length + sizes ops)
        (sizes rest)) (play (sizes ops + 1) [] op) (play (sizes more + 1) [] op) b :=
      hk ▸ play_alike op (Nat.le_succ _) hroom
    obtain ⟨heq, hland, hdeep⟩ := hplay
    obtain ⟨hrest, hrestDeep⟩ := ih hland.1
    refine ⟨?_, fun outcome h => ?_⟩
    · rw [rehearse.go, rehearse.go, ← heq, hrest]
    · rcases List.mem_cons.1 h with rfl | hmem
      · exact hdeep
      · exact hrestDeep outcome hmem

/-- No operation fails for want of depth. -/
theorem rehearse_ne_tooDeep [Scalar α] {objects : List String} {ops : List (CueOp α)}
    {outcome : Outcome α} (h : outcome ∈ rehearse objects ops) :
    outcome.1 ≠ .error .tooDeep :=
  (go_alike (Nat.le_refl _) (Nat.le_of_eq (Nat.zero_add _))).2 outcome h

/-- A sheet is played the same way with the depth and the steps that a larger one would have. -/
theorem rehearse_deeper [Scalar α] (objects : List String) {ops more : List (CueOp α)}
    (hle : sizes ops ≤ sizes more) : rehearse.go more { objects } ops = rehearse objects ops :=
  (go_alike hle (Nat.le_of_eq (Nat.zero_add _))).1

end CueSheet

end VisualNovel

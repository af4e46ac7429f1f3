import Mathlib.Logic.Relation
import VisualNovel.Proofs.Stage.Animator
import VisualNovel.Proofs.Table
import VisualNovel.Stage.CueSheet

/-!
What can happen to a board while a cue sheet is played, one move at a time. However operations
nest and wherever one of them fails, a board changes by these moves alone, so whatever they keep
holds of every rehearsal.
-/

namespace VisualNovel.CueSheet

open Act

variable {α β : Type}

/-! ### Moves -/

/-- The playing of a sheet at one moment: the operations that go on, the innermost first, and the
    board. -/
structure Standing (α : Type) where
  calls : List Call
  board : Board α

/-- The operation may bring a tween on its way or to its end: it asked for that tween, or the
    tween runs, or it ran when the operation made its copy. -/
def Call.MayRun (call : Call) (i : Nat) (b : Board α) : Prop :=
  call.kind.isDirect ∨ (call.kind.goesByCopy ∧ i ∈ call.running) ∨ i ∈ b.animator.running

namespace Board

/-- The board with its animator changed. -/
def withAnimator (f : Runner α → Runner α)
    (b : Board α) : Board α :=
  { b with animator := f b.animator }

/-- The board after a tween gave its attribute a value. -/
def give (calls : List Call) (tw : Motion α) (value : TweenValue α) (b : Board α) : Board α :=
  b.note calls (.gave tw.object.tween tw.object.object tw.slot value)

/-- The board after a tween went to its end, up to the call of its callback. -/
def conclude (calls : List Call) (i : Nat) (tw : Motion α) (b : Board α) : Board α :=
  let ended := (b.give calls tw tw.finish).withAnimator (·.change i Tween.ended)
  match tw.onDone with
  | some ending => ended.note calls (.called ending.tween ending.name)
  | none => ended

/-- The board after a tween has been added to those that run. -/
def start (calls : List Call) (i : Nat) (b : Board α) : Board α :=
  (b.withAnimator fun a => { a.sweep with running := a.sweep.running ++ [i] }).note calls
    (.started i)

end Board

/-- What can happen next while a sheet is played. -/
inductive Move : Standing α → Standing α → Prop
  | begin (kind : CueKind) (calls : List Call) (b : Board α) :
      Move ⟨calls, b⟩ ⟨b.callsWith kind calls, b.begin⟩
  | leave (call : Call) (calls : List Call) (b : Board α) : Move ⟨call :: calls, b⟩ ⟨calls, b⟩
  | make (calls : List Call) (b : Board α) (name : String)
      (tw : Motion α) (hopen : tw.isDone = false)
      (hobject : tw.object.tween = b.animator.pool.size)
      (hending : ∀ ending, tw.onDone = some ending → ending.tween = b.animator.pool.size) :
      Move ⟨calls, b⟩ ⟨calls, b.make name tw⟩
  | elapse (calls : List Call) (b : Board α) (i : Nat) (elapsed : α) :
      Move ⟨calls, b⟩ ⟨calls, b.withAnimator (·.change i fun tw => { tw with elapsed })⟩
  | give (call : Call) (calls : List Call) (b : Board α) (i : Nat)
      (tw : Motion α) (htw : b.animator.tween? i = some tw)
      (hmay : call.MayRun i b) (value : TweenValue α) :
      Move ⟨call :: calls, b⟩ ⟨call :: calls, b.give (call :: calls) tw value⟩
  | conclude (call : Call) (calls : List Call) (b : Board α) (i : Nat)
      (tw : Motion α) (htw : b.animator.tween? i = some tw)
      (hopen : tw.isDone = false) (hmay : call.MayRun i b) :
      Move ⟨call :: calls, b⟩ ⟨call :: calls, b.conclude (call :: calls) i tw⟩
  | sweep (calls : List Call) (b : Board α) : Move ⟨calls, b⟩ ⟨calls, b.withAnimator (·.sweep)⟩
  | start (calls : List Call) (b : Board α) (i : Nat) (hmade : i < b.animator.pool.size) :
      Move ⟨calls, b⟩ ⟨calls, b.start calls i⟩
  | cancel (call : Call) (calls : List Call) (b : Board α) (object : String)
      (hkind : call.kind = .cancel) :
      Move ⟨call :: calls, b⟩ ⟨call :: calls,
        (b.withAnimator (·.cancel ⟨object, 0⟩)).note (call :: calls)
          (.cancelled object (b.runningOn object))⟩

/-- What can become of the playing of a sheet. -/
abbrev Moves : Standing α → Standing α → Prop := Relation.ReflTransGen Move

theorem Moves.keeps {I : Standing α → Prop} (hmove : ∀ s s', Move s s' → I s → I s')
    {s s' : Standing α} (h : Moves s s') (hs : I s) : I s' := by
  induction h with
  | refl => exact hs
  | tail _ hlast ih => exact hmove _ _ hlast ih

/-- A relation by which playing may go: it holds along every move by which no tween begins to run.
    A tween that begins may need the look-through that comes first, see `Starts`. -/
structure Course (R : Standing α → Standing α → Prop) : Prop where
  refl : ∀ s, R s s
  trans : ∀ {s s' s''}, R s s' → R s' s'' → R s s''
  moves : ∀ {s s'}, R s s' → Moves s s'
  move : ∀ {s s'}, Move s s' → s'.board.animator.running ⊆ s.board.animator.running → R s s'

/-- Whatever comes of the computation, it takes the board to one that it stands in the relation to,
    and the same operations go on after it. -/
def Goes (R : Standing α → Standing α → Prop) (calls : List Call) (a : Playing α β)
    (b : Board α) : Prop :=
  Lands a b fun _ b' => R ⟨calls, b⟩ ⟨calls, b'⟩

namespace Goes

variable {γ : Type} {R : Standing α → Standing α → Prop} {calls : List Call} {b : Board α}

protected theorem pure (hR : Course R) (x : β) : Goes R calls (pure x : Playing α β) b := hR.refl _

protected theorem throw (hR : Course R) (e : Failure) : Goes R calls (throw e : Playing α β) b :=
  hR.refl _

protected theorem bind (hR : Course R) {a : Playing α β} {f : β → Playing α γ}
    (ha : Goes R calls a b) (hf : ∀ x b', R ⟨calls, b⟩ ⟨calls, b'⟩ → Goes R calls (f x) b') :
    Goes R calls (a >>= f) b :=
  Lands.then_bind ha (fun _ h => h) fun x b' h => (hf x b' h).mono fun _ _ h' => hR.trans h h'

theorem get_bind {f : Board α → Playing α β} (h : Goes R calls (f b) b) :
    Goes R calls (get >>= f) b := h

theorem change {f : Board α → Board α} (h : R ⟨calls, b⟩ ⟨calls, f b⟩) :
    Goes R calls (Act.change f) b := h

/-- What the computation does from the board as it is after a move. -/
theorem after (hR : Course R) {a : Playing α β} {b' : Board α} (h : R ⟨calls, b⟩ ⟨calls, b'⟩)
    (ha : Goes R calls a b') : Lands a b' fun _ b'' => R ⟨calls, b⟩ ⟨calls, b''⟩ :=
  ha.mono fun _ _ h' => hR.trans h h'

theorem change_bind (hR : Course R) {f : Board α → Board α} {g : Unit → Playing α β}
    (h : R ⟨calls, b⟩ ⟨calls, f b⟩) (hg : Goes R calls (g ()) (f b)) :
    Goes R calls (Act.change f >>= g) b :=
  Lands.change_bind (after hR h hg)

protected theorem discard {a : Playing α β} (h : Goes R calls a b) : Goes R calls (discard a) b :=
  Lands.discard h

protected theorem forM (hR : Course R) {xs : List γ} {f : γ → Playing α Unit}
    (hf : ∀ x ∈ xs, ∀ b', R ⟨calls, b⟩ ⟨calls, b'⟩ → Goes R calls (f x) b') :
    Goes R calls (xs.forM f) b := by
  induction xs generalizing b with
  | nil => exact Goes.pure hR ()
  | cons x xs ih =>
    refine Goes.bind hR (hf x List.mem_cons_self b (hR.refl _)) fun _ b' hb' => ?_
    exact ih fun y hy b'' hb'' => hf y (List.mem_cons_of_mem x hy) b'' (hR.trans hb' hb'')

end Goes

/-! ### Tweens on an object -/

theorem Board.mem_runningOn_iff {b : Board α} {object : String} {i : Nat} :
    i ∈ b.runningOn object ↔ i ∈ b.animator.running ∧
      ∃ tw, b.animator.tween? i = some tw ∧ tw.object.object = object := by
  rw [runningOn, List.mem_filter]
  refine and_congr_right fun _ => ?_
  cases b.animator.tween? i with
  | none => simp
  | some tw => simp

/-- Cancelling an object leaves the tweens that are not on it. -/
theorem Board.mem_running_cancel_iff {b : Board α} {object : String} {i : Nat} :
    i ∈ (b.animator.cancel ⟨object, 0⟩).running ↔
      i ∈ b.animator.running ∧ i ∉ b.runningOn object := by
  rw [Animator.cancel, List.mem_filter, mem_runningOn_iff]
  refine and_congr_right fun hrunning => ?_
  cases b.animator.tween? i with
  | none => simp
  | some tw =>
    have hsame : (tw.object == (⟨object, 0⟩ : Grip)) = (tw.object.object == object) := rfl
    simp [hsame, hrunning]

/-! ### Names -/

/-- Names are of tweens that were made. -/
def Board.Named (b : Board α) : Prop :=
  ∀ name i, b.named.get? name = some i → i < b.animator.pool.size

theorem Board.size_conclude (calls : List Call) (i : Nat) (tw : Motion α)
    (b : Board α) : (b.conclude calls i tw).animator.pool.size = b.animator.pool.size := by
  unfold conclude
  split <;> exact Array.size_modify

theorem Board.named_conclude (calls : List Call) (i : Nat) (tw : Motion α)
    (b : Board α) : (b.conclude calls i tw).named = b.named := by
  unfold conclude
  split <;> rfl

/-- The tweens that were made stay, and so do their names. -/
theorem Move.named {s s' : Standing α} (h : Move s s') :
    s.board.animator.pool.size ≤ s'.board.animator.pool.size ∧
      (s.board.Named → s'.board.Named) := by
  cases h with
  | begin | leave | give | sweep | start | cancel => exact ⟨Nat.le_refl _, id⟩
  | make calls b name tw =>
    have hsize : (b.make name tw).animator.pool.size = b.animator.pool.size + 1 :=
      Array.size_push _
    refine ⟨hsize ▸ Nat.le_succ _, fun hb name' i hi => ?_⟩
    rw [show (b.make name tw).named = b.named.put name b.animator.pool.size from rfl,
      Table.get?_put] at hi
    rw [hsize]
    split at hi
    · cases hi
      exact Nat.lt_succ_self _
    · exact Nat.lt_succ_of_lt (hb name' i hi)
  | elapse calls b i elapsed =>
    have hsize := Animator.size_change (a := b.animator) (f := fun tw => { tw with elapsed }) i
    refine ⟨Nat.le_of_eq hsize.symm, fun hb name j hj => ?_⟩
    rw [Board.withAnimator, hsize]
    exact hb name j hj
  | conclude call calls b i tw =>
    refine ⟨Nat.le_of_eq (b.size_conclude _ i tw).symm, fun hb name j hj => ?_⟩
    rw [Board.named_conclude] at hj
    rw [Board.size_conclude]
    exact hb name j hj

theorem Moves.size_le {s s' : Standing α} (h : Moves s s') :
    s.board.animator.pool.size ≤ s'.board.animator.pool.size :=
  h.keeps (I := fun t => s.board.animator.pool.size ≤ t.board.animator.pool.size)
    (fun _ _ hmove hle => Nat.le_trans hle hmove.named.1) (Nat.le_refl _)

theorem Moves.named {s s' : Standing α} (h : Moves s s') (hs : s.board.Named) : s'.board.Named :=
  h.keeps (I := fun t => t.board.Named) (fun _ _ hmove => hmove.named.2) hs

/-- The tweens that run were made. -/
def Board.Made (b : Board α) : Prop := ∀ i ∈ b.animator.running, i < b.animator.pool.size

theorem Board.running_conclude (calls : List Call) (i : Nat) (tw : Motion α)
    (b : Board α) : (b.conclude calls i tw).animator.running = b.animator.running := by
  unfold conclude
  split <;> rfl

theorem Move.made {s s' : Standing α} (h : Move s s') (hs : s.board.Made) : s'.board.Made := by
  cases h with
  | begin | leave | give => exact hs
  | make calls b name tw =>
    intro i hi
    exact Nat.lt_of_lt_of_le (hs i hi) (Nat.le_of_lt (Array.size_push _ ▸ Nat.lt_succ_self _))
  | elapse calls b i elapsed =>
    intro j hj
    rw [Board.withAnimator, Animator.size_change]
    exact hs j hj
  | conclude call calls b i tw =>
    intro j hj
    rw [Board.running_conclude] at hj
    rw [Board.size_conclude]
    exact hs j hj
  | sweep | cancel => exact fun i hi => hs i (List.mem_filter.1 hi).1
  | start calls b i hmade =>
    intro j hj
    rcases List.mem_append.1 hj with hswept | hnew
    · exact hs j (List.mem_filter.1 hswept).1
    · cases List.mem_singleton.1 hnew
      exact hmade

/-- A tween that was made stays on its object. -/
theorem Move.task? {s s' : Standing α} (h : Move s s') {i : Nat}
    (hi : i < s.board.animator.pool.size) :
    s'.board.animator.task? i = s.board.animator.task? i := by
  cases h with
  | begin | leave | give | sweep | start | cancel => rfl
  | make calls b name tw => exact Animator.task?_make tw hi
  | elapse calls b j elapsed =>
    exact Animator.task?_change (f := fun tw => { tw with elapsed }) (fun _ _ => rfl) i
  | conclude call calls b j tw =>
    show (b.conclude (call :: calls) j tw).animator.task? i = b.animator.task? i
    unfold Board.conclude
    split <;> exact Animator.task?_change (f := Tween.ended) (fun _ _ => rfl) i

/-! ### What the animator does -/

section Animator

variable {call : Call} {calls : List Call} {react : List (CueOp α) → Playing α Unit}
  {slack i : Nat} {tw : Motion α} {b : Board α}

@[simp] theorem host_animator : (host calls react slack).animator b = b.animator := rfl

@[simp] theorem host_modify (f : Runner α → Runner α) :
    (host calls react slack).modify f = Board.withAnimator f := rfl

@[simp] theorem host_slack : (host calls react slack).slack = slack := rfl

/-- What is played when a tween ends. -/
def reaction (react : List (CueOp α) → Playing α Unit) (tw : Motion α) :
    Playing α Unit :=
  match tw.onDone with
  | some ending => react ending.ops
  | none => pure ()

theorem outcome_finish_of_isDone (h : b.animator.isDone i) :
    ((host calls react slack).finish i).outcome b = (.ok (), b) := by
  unfold Animator.isDone at h
  unfold Host.finish
  rw [outcome_bind, outcome_get]
  split at h
  · next tw htw => simp only [host_animator, htw, h, if_true, outcome_pure]
  · next htw => simp only [host_animator, htw, outcome_pure]

/-- A tween that is not done goes to its end, and what it says is played there. -/
theorem outcome_finish (htw : b.animator.tween? i = some tw) (hopen : tw.isDone = false) :
    ((host calls react slack).finish i).outcome b =
      (reaction react tw).outcome (b.conclude calls i tw) := by
  unfold Host.finish reaction Board.conclude
  rw [outcome_bind, outcome_get]
  simp only [host_animator, htw, hopen, Bool.false_eq_true, if_false]
  rw [outcome_bind_of_ok (outcome_change _ _)]
  cases tw.onDone with
  | none => rfl
  | some ending => exact outcome_bind_of_ok (outcome_change _ _)

/-- The tween a time later, on its way. -/
def later [Scalar α] (dt : α) (tw : Motion α) : Motion α :=
  { tw with elapsed := tw.elapsed + dt }

theorem later_eq [Scalar α] (htw : b.animator.tween? i = some tw) (dt : α)
    (old : Motion α) (hold : b.animator.tween? i = some old) :
    later dt old = { old with elapsed := tw.elapsed + dt } := by
  rw [htw] at hold
  cases hold
  rfl

theorem outcome_advance_of_isDone [Scalar α] (h : b.animator.isDone i) (dt : α) :
    ((host calls react slack).advance i dt).outcome b = (.ok true, b) := by
  unfold Animator.isDone at h
  unfold Host.advance
  rw [outcome_bind, outcome_get]
  split at h
  · next tw htw => simp only [host_animator, htw, h, if_true, outcome_pure]
  · next htw => simp only [host_animator, htw, outcome_pure]

/-- A tween that is not done runs for a time and gives its attribute a value. If its time is over
    then, it goes to its end. -/
theorem outcome_advance [Scalar α] (htw : b.animator.tween? i = some tw)
    (hopen : tw.isDone = false) (dt : α) :
    ((host calls react slack).advance i dt).outcome b =
      match (later dt tw).value? with
      | none => (.error .mismatch, b.withAnimator (·.change i (later dt)))
      | some value =>
        (do if (later dt tw).isOver then (host calls react slack).finish i
            return (← get).animator.isDone i : Playing α Bool).outcome
          ((b.withAnimator (·.change i (later dt))).give calls tw value) := by
  have hlater : { tw with elapsed := tw.elapsed + dt, isDone := false } = later dt tw := by
    rw [later, ← hopen]
  have hchange : (b.withAnimator (·.change i fun _ => later dt tw)) =
      b.withAnimator (·.change i (later dt)) := by
    rw [Board.withAnimator, Animator.change_congr fun old hold => ?_, Board.withAnimator]
    rw [htw] at hold
    cases hold
    rfl
  unfold Host.advance
  rw [outcome_bind, outcome_get]
  simp only [host_animator, htw, hopen, Bool.false_eq_true, if_false, hlater, host_modify]
  rw [outcome_bind_of_ok (outcome_change _ _), hchange]
  cases (later dt tw).value? with
  | none => rfl
  | some value => exact outcome_bind_of_ok (outcome_change _ _)

/-- The operations of tweens that end go by the relation. -/
def Reacts (R : Standing α → Standing α → Prop) (calls : List Call)
    (react : List (CueOp α) → Playing α Unit) : Prop :=
  ∀ ops b, b.Named → Goes R calls (react ops) b

/-- A tween that was made begins by the relation, with the look-through that comes first. -/
def Starts (R : Standing α → Standing α → Prop) : Prop :=
  ∀ {call calls react slack i b}, Reacts R (call :: calls) react → b.Named →
    i < b.animator.pool.size → Goes R (call :: calls) (start (call :: calls) react slack i) b

namespace Course

variable {R : Standing α → Standing α → Prop}

theorem named (hR : Course R) {s s' : Standing α} (h : R s s') (hs : s.board.Named) :
    s'.board.Named :=
  (hR.moves h).named hs

theorem finish_goes (hR : Course R) (hreact : Reacts R (call :: calls) react) (hb : b.Named)
    (hmay : call.MayRun i b) :
    Goes R (call :: calls) ((host (call :: calls) react slack).finish i) b := by
  unfold Goes Lands
  cases hdone : b.animator.isDone i with
  | true =>
    rw [outcome_finish_of_isDone hdone]
    exact hR.refl _
  | false =>
    obtain ⟨tw, htw, hopen⟩ := Animator.exists_tween?_of_isDone_eq_false hdone
    rw [outcome_finish htw hopen]
    have hrunning := b.running_conclude (call :: calls) i tw
    have hmove : R ⟨call :: calls, b⟩ ⟨call :: calls, b.conclude (call :: calls) i tw⟩ :=
      hR.move (.conclude call calls b i tw htw hopen hmay) fun _ hj => hrunning ▸ hj
    unfold reaction
    split
    · next ending _ => exact Goes.after hR hmove (hreact ending.ops _ (hR.named hmove hb))
    · exact hmove

/-- The look-through before a tween begins ends only tweens that run. -/
theorem supersede_goes (hR : Course R) (hreact : Reacts R (call :: calls) react) (hb : b.Named)
    (steps position : Nat) :
    Goes R (call :: calls) ((host (call :: calls) react slack).supersede i steps position) b := by
  induction steps generalizing b position with
  | zero => exact Goes.pure hR ()
  | succ steps ih =>
    refine Goes.get_bind ?_
    simp only [host_animator]
    split
    · exact Goes.pure hR ()
    · next j hj =>
      have hfinish : Goes R (call :: calls) ((host (call :: calls) react slack).finish j) b :=
        hR.finish_goes hreact hb (.inr (.inr (List.mem_of_getElem? hj)))
      split
      · split
        · exact Goes.bind hR hfinish fun _ b' hb' => ih (hR.named hb' hb) (position + 1)
        · exact ih hb (position + 1)
      · exact ih hb (position + 1)

/-- Tweens that run for a time or go to their ends, one after the other, and are swept away. -/
theorem forM_sweep_goes (hR : Course R) {f : Nat → Playing α Unit} {is : List Nat} (hb : b.Named)
    (hf : ∀ i ∈ is, ∀ b' : Board α, b'.Named → Goes R calls (f i) b') :
    Goes R calls (is.forM f >>= fun _ => Act.change (Board.withAnimator Animator.sweep)) b :=
  Goes.bind hR (Goes.forM hR fun i hi b' hb' => hf i hi b' (hR.named hb' hb)) fun _ b' _ =>
    Goes.change (hR.move (.sweep calls b') fun _ hj => (List.mem_filter.1 hj).1)

theorem finishAll_goes (hR : Course R) (hreact : Reacts R (call :: calls) react) (hb : b.Named)
    (hkind : call.kind.goesByCopy) (hrunning : call.running = b.animator.running) :
    Goes R (call :: calls) ((host (call :: calls) react slack).finishAll) b := by
  refine Goes.get_bind (hR.forM_sweep_goes hb fun i hi b' hb' => ?_)
  exact hR.finish_goes hreact hb' (.inr (.inl ⟨hkind, hrunning ▸ hi⟩))

/-- A name that is known is that of a tween that was made. -/
theorem number_goes (hR : Course R) (hb : b.Named) (name : String) {f : Nat → Playing α β}
    (hf : ∀ i, i < b.animator.pool.size → Goes R calls (f i) b) :
    Goes R calls (number name >>= f) b := by
  unfold Goes Lands number
  rw [outcome_bind, outcome_bind, outcome_get]
  dsimp only
  split
  · next i b' h =>
    split at h
    · next hname =>
      cases h
      exact hf i (hb name i hname)
    · cases h
  · next e b' h =>
    split at h
    · cases h
    · cases h
      exact hR.refl _

theorem require_goes (hR : Course R) (object : String) {f : Unit → Playing α β}
    (hf : Goes R calls (f ()) b) : Goes R calls (require object >>= f) b := by
  unfold Goes Lands require
  rw [outcome_bind, outcome_bind, outcome_get]
  dsimp only
  split
  · next h =>
    split at h
    · cases h
    · cases h
      exact hf
  · next h =>
    split at h
    · cases h
      exact hR.refl _
    · cases h

section Time

variable [Scalar α]

theorem advance_goes (hR : Course R) (hreact : Reacts R (call :: calls) react) (hb : b.Named)
    (hmay : call.MayRun i b) (dt : α) :
    Goes R (call :: calls) ((host (call :: calls) react slack).advance i dt) b := by
  unfold Goes Lands
  cases hdone : b.animator.isDone i with
  | true =>
    rw [outcome_advance_of_isDone hdone]
    exact hR.refl _
  | false =>
    obtain ⟨tw, htw, hopen⟩ := Animator.exists_tween?_of_isDone_eq_false hdone
    rw [outcome_advance htw hopen]
    have helapse : R ⟨call :: calls, b⟩
        ⟨call :: calls, b.withAnimator (·.change i (later dt))⟩ := by
      rw [Board.withAnimator, Animator.change_congr (later_eq htw dt)]
      exact hR.move (.elapse _ b i _) fun _ => id
    split
    · exact helapse
    · next value _ =>
      have hlater : (b.withAnimator (·.change i (later dt))).animator.tween? i =
          some (later dt tw) := by
        rw [Board.withAnimator, Animator.tween?_change, if_pos rfl, htw, Option.map_some]
      have hgive : R ⟨call :: calls, b⟩ ⟨call :: calls,
          (b.withAnimator (·.change i (later dt))).give (call :: calls) tw value⟩ :=
        hR.trans helapse
          (hR.move (.give call calls _ i (later dt tw) hlater hmay value) fun _ => id)
      refine Goes.after hR hgive ?_
      split
      · exact Goes.bind hR (hR.finish_goes hreact (hR.named hgive hb) hmay) fun _ _ _ =>
          Goes.pure hR _
      · exact Goes.pure hR _

theorem update_goes (hR : Course R) (hreact : Reacts R (call :: calls) react) (hb : b.Named)
    (hkind : call.kind.goesByCopy) (hrunning : call.running = b.animator.running) (dt : α) :
    Goes R (call :: calls) ((host (call :: calls) react slack).update dt) b := by
  refine Goes.get_bind (hR.forM_sweep_goes hb fun i hi b' hb' => Goes.discard ?_)
  exact hR.advance_goes hreact hb' (.inr (.inl ⟨hkind, hrunning ▸ hi⟩)) dt

/-! ### What is played -/

/-- What an operation does once it has begun. -/
theorem carryOut_goes (hR : Course R) (hstart : Starts R) (hreact : Reacts R (call :: calls) react)
    (hb : b.Named) {op : CueOp α} (hkind : call.kind = op.kind)
    (hrunning : call.running = b.animator.running) :
    Goes R (call :: calls) (carryOut (call :: calls) react slack op) b := by
  cases op with
  | make runs name object slot first last duration ease elapsed followUp =>
    refine hR.require_goes object (Goes.get_bind ?_)
    have hmade : R ⟨call :: calls, b⟩ ⟨call :: calls, b.make name _⟩ := hR.move
      (.make (call :: calls) b name
        { object := ⟨object, b.animator.pool.size⟩, slot, start := first, finish := last, duration
          ease, elapsed, onDone := followUp.map fun ops => ⟨b.animator.pool.size, name, ops⟩ }
        rfl rfl fun ending hending => by
          obtain ⟨ops, -, rfl⟩ := Option.map_eq_some_iff.1 hending
          rfl) fun _ => id
    refine Goes.change_bind hR hmade ?_
    split
    · refine hstart hreact (hR.named hmade hb) ?_
      exact Nat.lt_of_lt_of_eq (Nat.lt_succ_self _) (Array.size_push _).symm
    · exact Goes.pure hR _
  | start name => exact hR.number_goes hb name fun i hi => hstart hreact hb hi
  | update dt =>
    refine Goes.bind hR (hR.update_goes hreact hb ?_ hrunning dt) fun _ _ _ => Goes.pure hR _
    rw [hkind]
    rfl
  | updateOne name dt =>
    refine hR.number_goes hb name fun i hi => ?_
    exact Goes.bind hR (hR.advance_goes hreact hb (.inl (by rw [hkind]; rfl)) dt) fun _ _ _ =>
      Goes.pure hR _
  | finish name =>
    refine hR.number_goes hb name fun i hi => ?_
    exact Goes.bind hR (hR.finish_goes hreact hb (.inl (by rw [hkind]; rfl))) fun _ _ _ =>
      Goes.pure hR _
  | finishAll =>
    refine Goes.bind hR (hR.finishAll_goes hreact hb ?_ hrunning) fun _ _ _ => Goes.pure hR _
    rw [hkind]
    rfl
  | cancel object =>
    refine hR.require_goes object (Goes.get_bind ?_)
    exact hR.move (.cancel call calls b object hkind) fun _ hj => (List.mem_filter.1 hj).1

/-- An operation goes by the relation, however deep its callbacks nest, and is over at its end. -/
theorem play_goes (hR : Course R) (hstart : Starts R) (depth : Nat) (op : CueOp α)
    (hb : b.Named) : Goes R calls (play depth calls op) b := by
  induction depth generalizing calls op b with
  | zero => exact Goes.throw hR _
  | succ depth ih =>
    have hbegin : R ⟨calls, b⟩ ⟨b.callsWith op.kind calls, b.begin⟩ :=
      hR.move (.begin op.kind calls b) fun _ => id
    have hreact : Reacts R (b.callsWith op.kind calls) fun ops =>
        ops.forM fun o => discard (play depth (b.callsWith op.kind calls) o) :=
      fun ops b' hb' => Goes.forM hR fun o _ b'' hb'' => Goes.discard (ih o (hR.named hb'' hb'))
    refine Goes.get_bind (Lands.change_bind ?_)
    refine Lands.mono (hR.carryOut_goes hstart hreact (hR.named hbegin hb) rfl rfl)
      fun _ b' hb' => hR.trans (hR.trans hbegin hb') ?_
    exact hR.move (.leave _ _ _) fun _ => id

theorem go_goes (hR : Course R) (hstart : Starts R) {ops rest : List (CueOp α)}
    {outcome : Outcome α} (hb : b.Named) (h : outcome ∈ rehearse.go ops b rest) :
    R ⟨[], b⟩ ⟨[], outcome.2⟩ := by
  induction rest generalizing b with
  | nil => cases h
  | cons op rest ih =>
    have hplay : R ⟨[], b⟩ ⟨[], ((play (sizes ops + 1) [] op).outcome b).2⟩ :=
      hR.play_goes hstart _ op hb
    rcases List.mem_cons.1 h with rfl | hrest
    · exact hplay
    · exact hR.trans hplay (ih (hR.named hplay hb) hrest)

/-- After each of its operations a sheet has gone by the relation from an empty board, and none of
    its operations goes on. -/
theorem rehearse_goes (hR : Course R) (hstart : Starts R) {objects : List String}
    {ops : List (CueOp α)} {outcome : Outcome α} (h : outcome ∈ rehearse objects ops) :
    R ⟨[], { objects }⟩ ⟨[], outcome.2⟩ :=
  hR.go_goes hstart (fun _ _ hname => by cases hname) h

end Time

end Course

/-- A tween is added after the look-through, unless that fails. -/
theorem outcome_start :
    (start calls react slack i).outcome b =
      match ((host calls react slack).supersede i (b.animator.running.length + slack) 0).outcome b
        with
      | (.ok _, b') => (.ok (some true), b'.start calls i)
      | (.error e, b') => (.error e, b') := by
  unfold start Host.add
  simp only [outcome_bind, outcome_get, host_animator, host_modify, host_slack, outcome_change]
  cases ((host calls react slack).supersede i (b.animator.running.length + slack) 0).outcome b with
  | mk r b' => cases r <;> rfl

end Animator

/-! ### From move to move -/

theorem Moves.course : Course (Moves : Standing α → Standing α → Prop) where
  refl _ := .refl
  trans := .trans
  moves := id
  move h _ := .single h

theorem Moves.starts : Starts (Moves : Standing α → Standing α → Prop) := by
  intro call calls react slack i b hreact hb hi
  have hsupersede : Goes Moves (call :: calls) ((host (call :: calls) react slack).supersede i
      (b.animator.running.length + slack) 0) b := Moves.course.supersede_goes hreact hb _ 0
  unfold Goes Lands at hsupersede ⊢
  rw [outcome_start]
  split
  · next b' h =>
    rw [h] at hsupersede
    exact hsupersede.tail (.start _ b' i (Nat.lt_of_lt_of_le hi hsupersede.size_le))
  · next h =>
    rw [h] at hsupersede
    exact hsupersede

/-- After each of its operations a sheet has been played by moves from an empty board, and none of
    its operations goes on. -/
theorem rehearse_moves [Scalar α] {objects : List String} {ops : List (CueOp α)}
    {outcome : Outcome α} (h : outcome ∈ rehearse objects ops) :
    Moves ⟨[], { objects }⟩ ⟨[], outcome.2⟩ :=
  Moves.course.rehearse_goes Moves.starts h

end VisualNovel.CueSheet

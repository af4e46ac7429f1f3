import VisualNovel.Proofs.Stage.Completing

/-!
What becomes of a tween whose object has been cancelled. It does not run any more, and the
look-through before another tween begins passes it by. An update that goes on while its object is
cancelled is another matter: such an operation goes by the tweens that ran when it began, so it may
still bring the tween on its way and to its end. Main statement: `cancelled_tween_touched`.
-/

namespace VisualNovel.CueSheet

variable {α : Type} {calls dropped : List Call} {call : Call} {i : Nat} {b : Board α}
  {s : Standing α} {after : List (Note α)}

/-- The tween that gives its attribute a value or whose callback is called. -/
def Event.touched? (e : Event α) : Option Nat :=
  match e with
  | .gave i .. => some i
  | .called i _ => some i
  | _ => none

/-- The operation may touch tween `i` although it was cancelled in the course of the operations
    `dropped`: it asked for that tween, or it is one of these and goes by the tweens that ran when
    it began. -/
def Call.MayTouch (call : Call) (dropped : List Call) (i : Nat) : Prop :=
  call.kind.isDirect ∨ (call ∈ dropped ∧ call.kind.goesByCopy ∧ i ∈ call.running)

/-- How a sheet is played on once tween `i` was cancelled in the course of the operations `dropped`;
    `after` is noted since. -/
structure Gone (dropped : List Call) (i : Nat) (s : Standing α) (after : List (Note α)) : Prop where
  not_running : i ∉ s.board.animator.running
  ran : ∀ call ∈ s.calls, i ∈ call.running → call ∈ dropped
  touched : ∀ n ∈ after, n.event.touched? = some i →
    ∃ call rest, n.calls = call :: rest ∧ call.MayTouch dropped i

namespace Gone

/-- An operation that may run the tween may touch it. -/
theorem mayTouch (h : Gone dropped i ⟨call :: calls, b⟩ after) (hmay : call.MayRun i b) :
    call.MayTouch dropped i := by
  rcases hmay with hdirect | ⟨hcopy, hran⟩ | hrunning
  · exact .inl hdirect
  · exact .inr ⟨h.ran call List.mem_cons_self hran, hcopy, hran⟩
  · exact absurd hrunning h.not_running

theorem note {n : Note α} {s' : Standing α} (h : Gone dropped i s after)
    (hrunning : i ∉ s'.board.animator.running) (hcalls : s'.calls = s.calls)
    (hn : n.event.touched? = some i →
      ∃ call rest, n.calls = call :: rest ∧ call.MayTouch dropped i) :
    Gone dropped i s' (after ++ [n]) := by
  refine ⟨hrunning, hcalls ▸ h.ran, fun m hm htouched => ?_⟩
  rcases List.mem_append.1 hm with hold | hnew
  · exact h.touched m hold htouched
  · cases List.mem_singleton.1 hnew
    exact hn htouched

end Gone

/-- Tween `i` is on this object, if it has been made. -/
def Board.OnObject (b : Board α) (object : String) (i : Nat) : Prop :=
  ∀ tw, b.animator.tween? i = some tw → tw.object.object = object

theorem Board.OnObject.of_task? {b' : Board α} {object : String}
    (htask : ∀ j < b.animator.pool.size, b'.animator.task? j = b.animator.task? j)
    (hi : b'.OnObject object i) : b.OnObject object i := by
  intro tw htw
  have hsame := htask i (Array.getElem?_eq_some_iff.1 htw).1
  rw [Animator.task?, Animator.task?, htw, Option.map_some] at hsame
  obtain ⟨tw', htw', heq⟩ := Option.map_eq_some_iff.1 hsame
  rw [Prod.mk.injEq] at heq
  rw [← heq.1]
  exact hi tw' htw'

/-- Each tween on an object that was cancelled is gone, unless it was started again since. -/
def Dropping (s : Standing α) : Prop :=
  ∀ before dropped object held after i,
    s.board.journal.toList = before ++ ⟨dropped, .cancelled object held⟩ :: after →
    s.board.OnObject object i → (∀ n ∈ after, n.event ≠ .started i) → Gone dropped i s after

namespace Dropping

/-- Nothing is noted, none starts to run, and no operation begins that might run a tween which is
    gone. -/
theorem of_same {s' : Standing α} (h : Dropping s)
    (htask : ∀ j < s.board.animator.pool.size,
      s'.board.animator.task? j = s.board.animator.task? j)
    (hjournal : s'.board.journal = s.board.journal)
    (hrunning : ∀ i, i ∉ s.board.animator.running → i ∉ s'.board.animator.running)
    (hcalls : ∀ call ∈ s'.calls, call ∈ s.calls ∨ call.running = s.board.animator.running) :
    Dropping s' := by
  intro before dropped object held after i heq hi hstarted
  have hgone := h before dropped object held after i (hjournal ▸ heq) (hi.of_task? htask) hstarted
  refine ⟨hrunning i hgone.not_running, fun call hcall hran => ?_, hgone.touched⟩
  rcases hcalls call hcall with hold | hnow
  · exact hgone.ran call hold hran
  · exact absurd (hnow ▸ hran) hgone.not_running

/-- Something is noted that is not a cancelling. -/
theorem note {n : Note α} {s' : Standing α} (h : Dropping s)
    (htask : ∀ j < s.board.animator.pool.size,
      s'.board.animator.task? j = s.board.animator.task? j)
    (hjournal : s'.board.journal = s.board.journal.push n)
    (hn : ∀ object held, n.event ≠ .cancelled object held) (hcalls : s'.calls = s.calls)
    (hgone : ∀ dropped i after, Gone dropped i s after → n.event ≠ .started i →
      i ∉ s'.board.animator.running ∧ (n.event.touched? = some i →
        ∃ call rest, n.calls = call :: rest ∧ call.MayTouch dropped i)) :
    Dropping s' := by
  intro before dropped object held after i heq hi hstarted
  rw [hjournal, Trail.toList_push] at heq
  rcases eq_or_of_concat_eq heq with ⟨-, rfl, -⟩ | ⟨earlier, rfl, hnotes⟩
  · exact absurd rfl (hn object held)
  · have hold : Gone dropped i s earlier :=
      h before dropped object held earlier i hnotes (hi.of_task? htask)
        fun m hm => hstarted m (List.mem_append_left _ hm)
    obtain ⟨hrunning, htouched⟩ := hgone dropped i earlier hold
      (hstarted n (List.mem_append_right _ List.mem_cons_self))
    exact hold.note hrunning hcalls htouched

/-- A tween is touched by an operation that may run it. -/
theorem touch (h : Dropping ⟨call :: calls, b⟩) {e : Event α} {j : Nat}
    (he : e.touched? = some j) (hmay : call.MayRun j b) :
    Dropping ⟨call :: calls, b.note (call :: calls) e⟩ := by
  refine h.note (fun _ _ => rfl) rfl (fun object held heq => ?_) rfl fun dropped i after hgone _ =>
    ⟨hgone.not_running, fun htouched => ⟨call, calls, rfl, ?_⟩⟩
  · cases heq
    cases he
  · rw [htouched] at he
    cases he
    exact hgone.mayTouch hmay

theorem start (h : Dropping ⟨calls, b⟩) (j : Nat) : Dropping ⟨calls, b.start calls j⟩ := by
  refine h.note (fun _ _ => rfl) rfl (fun object held heq => by cases heq) rfl
    fun dropped i after hgone hne => ⟨fun hmem => ?_, fun htouched => by cases htouched⟩
  rcases List.mem_append.1 hmem with hswept | hnew
  · exact hgone.not_running (List.mem_filter.1 hswept).1
  · cases List.mem_singleton.1 hnew
    exact hne rfl

theorem cancel (h : Dropping ⟨call :: calls, b⟩) (hmade : b.Made) (object : String) :
    Dropping ⟨call :: calls, (b.withAnimator (·.cancel ⟨object, 0⟩)).note (call :: calls)
      (.cancelled object (b.runningOn object))⟩ := by
  intro before dropped object' held after i heq hi hstarted
  rw [Board.note, Trail.toList_push] at heq
  rcases eq_or_of_concat_eq heq with ⟨-, hn, rfl⟩ | ⟨earlier, rfl, hnotes⟩
  · cases hn
    refine ⟨fun hmem => ?_, fun _ hcall _ => hcall, fun m hm => by cases hm⟩
    obtain ⟨hrunning, hother⟩ := Board.mem_running_cancel_iff.1 hmem
    have htw := Array.getElem?_eq_getElem (hmade i hrunning)
    exact hother (Board.mem_runningOn_iff.2 ⟨hrunning, _, htw, hi _ htw⟩)
  · have hold : Gone dropped i ⟨call :: calls, b⟩ earlier :=
      h before dropped object' held earlier i hnotes hi
        fun m hm => hstarted m (List.mem_append_left _ hm)
    exact hold.note (fun hmem => hold.not_running (Board.mem_running_cancel_iff.1 hmem).1) rfl
      fun htouched => by cases htouched

/-- Tweens that are gone stay so, whatever happens next. -/
theorem move {s s' : Standing α} (hs : Dropping s) (h : Move s s')
    (howned : Owned s.board.animator) (hmade : s.board.Made) : Dropping s' := by
  have htask : ∀ j < s.board.animator.pool.size,
      s'.board.animator.task? j = s.board.animator.task? j := fun _ => h.task?
  cases h with
  | begin kind calls b =>
    refine hs.of_same htask rfl (fun _ => id) fun call hcall => ?_
    rcases List.mem_cons.1 hcall with rfl | hold
    · exact .inr rfl
    · exact .inl hold
  | leave call calls b =>
    exact hs.of_same htask rfl (fun _ => id) fun c hc => .inl (List.mem_cons_of_mem call hc)
  | make | elapse => exact hs.of_same htask rfl (fun _ => id) fun _ => .inl
  | give call calls b i tw htw hmay value =>
    exact hs.touch (congrArg some (howned i tw htw).1) hmay
  | conclude call calls b i tw htw hopen hmay =>
    have hgave : Dropping ⟨call :: calls, b.give (call :: calls) tw tw.finish⟩ :=
      hs.touch (congrArg some (howned i tw htw).1) hmay
    have hended : Dropping ⟨call :: calls, (b.give (call :: calls) tw tw.finish).withAnimator
        (·.change i Tween.ended)⟩ :=
      hgave.of_same (fun j _ => Animator.task?_change (f := Tween.ended) (fun _ _ => rfl) j) rfl
        (fun _ => id) fun _ => .inl
    unfold Board.conclude
    split
    · next ending honDone =>
      exact hended.touch (congrArg some ((howned i tw htw).2 ending honDone)) hmay
    · exact hended
  | sweep calls b =>
    exact hs.of_same htask rfl (fun i hi hmem => hi (List.mem_filter.1 hmem).1) fun _ => .inl
  | start calls b i hmade => exact hs.start i
  | cancel call calls b object => exact hs.cancel hmade object

end Dropping

/-- After an object was cancelled, a tween on it that is not started again does not run, and is
    touched only by operations that ask for it and by those that were going on when the object was
    cancelled and go by the tweens that ran when they began. So once these are over, or if there
    were none, it is not touched through the animator any more. -/
theorem cancelled_tween_touched [Scalar α] {objects : List String} {ops : List (CueOp α)}
    {outcome : Outcome α} (h : outcome ∈ rehearse objects ops) {before after : List (Note α)}
    {calls : List Call} {object : String} {held : List Nat} {i : Nat} {tw : Motion α}
    (hcancelled : outcome.2.journal.toList = before ++ ⟨calls, .cancelled object held⟩ :: after)
    (htw : outcome.2.animator.tween? i = some tw) (hobject : tw.object.object = object)
    (hstarted : ∀ n ∈ after, n.event ≠ .started i) :
    i ∉ outcome.2.animator.running ∧ ∀ n ∈ after, n.event.touched? = some i →
      ∃ call rest, n.calls = call :: rest ∧
        (call.kind.isDirect ∨ (call ∈ calls ∧ call.kind.goesByCopy ∧ i ∈ call.running)) := by
  have hempty : Dropping ⟨[], ({ objects } : Board α)⟩ := by
    intro before dropped object held after i heq
    simp at heq
  have hkept := (rehearse_moves h).keeps
    (I := fun s => Settling s.board ∧ s.board.Made ∧ Dropping s)
    (fun s s' hmove ⟨hsettling, hmade, hdropping⟩ => ⟨hsettling.move hmove, hmove.made hmade,
      hdropping.move hmove hsettling.owned hmade⟩)
    ⟨settling_empty objects, fun i hi => absurd hi List.not_mem_nil, hempty⟩
  have hon : outcome.2.OnObject object i := fun tw' htw' => by
    cases htw.symm.trans htw'
    exact hobject
  have hgone := hkept.2.2 before calls object held after i hcancelled hon hstarted
  exact ⟨hgone.not_running, hgone.touched⟩

/-- The callback of the first tween cancels the object of the second one while the animator still
    updates both: the second one goes to its end all the same, through that update. -/
theorem cancelled_tween_touched_under_way :
    let one : Float := Scalar.nat 1
    let step (name object : String) (followUp : List (CueOp Float)) :=
      CueOp.make true name object "x" (.number Scalar.zero) (.number one) one .linear Scalar.zero
        (some followUp)
    let ops := [step "first" "a" [.cancel "b"], step "second" "b" [], .update (Scalar.nat 2)]
    ∃ outcome ∈ rehearse ["a", "b"] ops, ∃ before calls after n,
      outcome.2.journal.toList = before ++ ⟨calls, .cancelled "b" [1]⟩ :: after ∧ n ∈ after ∧
      n.event = .called 1 "second" ∧ ∃ call rest, n.calls = call :: rest ∧
        (call.kind.isDirect ∨ (call ∈ calls ∧ call.kind.goesByCopy ∧ 1 ∈ call.running)) := by
  intro one step ops
  let update : Call := ⟨2, .update, [0, 1]⟩
  let calls : List Call := [⟨3, .cancel, [0, 1]⟩, update]
  let last := (rehearse ["a", "b"] ops).get ⟨2, Nat.lt_succ_self 2⟩
  let notes := last.2.journal.toList
  have hlast : last ∈ rehearse ["a", "b"] ops := List.get_mem _ _
  have hcancelled : notes = notes.take 5 ++ ⟨calls, .cancelled "b" [1]⟩ :: notes.drop 6 := by
    decide +kernel
  have hcalled : ⟨[update], .called 1 "second"⟩ ∈ notes.drop 6 := by decide +kernel
  have hstarted : ∀ n ∈ notes.drop 6, n.event ≠ .started 1 := by decide +kernel
  have hobject : (last.2.animator.tween? 1).map (·.object.object) = some "b" := by decide +kernel
  obtain ⟨tw, htw, hobject⟩ := Option.map_eq_some_iff.1 hobject
  have htouched := cancelled_tween_touched hlast hcancelled htw hobject hstarted
  exact ⟨last, hlast, notes.take 5, calls, notes.drop 6, _, hcancelled, hcalled, rfl,
    htouched.2 _ hcalled rfl⟩

end VisualNovel.CueSheet

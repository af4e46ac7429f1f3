import Mathlib.Data.List.Nodup
import VisualNovel.Proofs.Stage.Nesting

/-!
How tweens complete while a cue sheet is played. The callback of a tween is called once, when its
attribute has its end value, and a tween that was started runs until that or until its object is
cancelled. Main statement: `tween_completes_once`.
-/

namespace VisualNovel.CueSheet

open Act

variable {α : Type}

/-! ### Journals -/

/-- What is found in a list with one item more was there before, or is that item. -/
theorem eq_or_of_concat_eq {γ : Type} {xs before after : List γ} {x y : γ}
    (h : xs ++ [x] = before ++ y :: after) :
    (xs = before ∧ x = y ∧ after = []) ∨
      ∃ earlier, after = earlier ++ [x] ∧ xs = before ++ y :: earlier := by
  rcases List.eq_nil_or_concat after with rfl | ⟨earlier, last, rfl⟩
  · obtain ⟨hxs, hx⟩ := List.append_inj' h rfl
    exact .inl ⟨hxs, List.head_eq_of_cons_eq hx, rfl⟩
  · rw [List.concat_eq_append, ← List.cons_append, ← List.append_assoc] at h
    obtain ⟨hxs, hx⟩ := List.append_inj' h rfl
    exact .inr ⟨earlier, by rw [List.concat_eq_append, List.head_eq_of_cons_eq hx], hxs⟩

/-- The tween whose callback is called in a note. -/
def Note.called? (n : Note α) : Option Nat :=
  match n.event with
  | .called i _ => some i
  | _ => none

/-- The tweens whose callbacks have been called, in order. -/
def calledIn (notes : List (Note α)) : List Nat := notes.filterMap Note.called?

/-- Tween `i`, which drives an attribute of this object, has been taken away with the tweens on
    it. -/
def CancelledIn (notes : List (Note α)) (i : Nat) (object : String) : Prop :=
  ∃ calls tweens, (⟨calls, .cancelled object tweens⟩ : Note α) ∈ notes ∧ i ∈ tweens

theorem CancelledIn.concat {notes : List (Note α)} {i : Nat} {object : String}
    (h : CancelledIn notes i object) (n : Note α) : CancelledIn (notes ++ [n]) i object := by
  obtain ⟨calls, tweens, hmem, hi⟩ := h
  exact ⟨calls, tweens, List.mem_append_left _ hmem, hi⟩

/-! ### Tweens -/

section Tweens

variable {ω τ κ : Type} {a : Animator ω τ κ α} {f : Tween ω τ κ α → Tween ω τ κ α} {i : Nat}

/-- What holds of a tween exactly if it holds of what the tween is changed to holds before the
    change exactly if it holds after it. -/
theorem exists_tween?_change_iff {P : Tween ω τ κ α → Prop} (j : Nat)
    (hP : i = j → ∀ tw, a.tween? i = some tw → (P (f tw) ↔ P tw)) :
    (∃ tw, (a.change i f).tween? j = some tw ∧ P tw) ↔ ∃ tw, a.tween? j = some tw ∧ P tw := by
  rw [Animator.tween?_change]
  split
  · next heq =>
    subst heq
    cases htw : a.tween? i with
    | none => simp
    | some tw => simpa using hP rfl tw htw
  · exact Iff.rfl

/-- A tween that was made stays when another one is made. -/
theorem tween?_make_of_eq_some {new tw : Tween ω τ κ α} (htw : a.tween? i = some tw) :
    (a.make new).tween? i = some tw := by
  obtain ⟨hlt, -⟩ := Array.getElem?_eq_some_iff.1 htw
  rw [Animator.tween?_make, if_neg (Nat.ne_of_lt hlt), htw]

end Tweens

variable {a a' : Runner α} {notes : List (Note α)} {i : Nat}
  {tw : Motion α}

/-- Each tween has its object and its callback under its own number. -/
def Owned (a : Runner α) : Prop :=
  ∀ i tw, a.tween? i = some tw →
    tw.object.tween = i ∧ ∀ ending, tw.onDone = some ending → ending.tween = i

theorem Owned.change (h : Owned a) {f : Motion α → Motion α}
    (hf : ∀ tw, a.tween? i = some tw →
      (f tw).object.tween = tw.object.tween ∧ (f tw).onDone = tw.onDone) :
    Owned (a.change i f) := by
  intro j tw htw
  rw [Animator.tween?_change] at htw
  split at htw
  · next heq =>
    subst heq
    obtain ⟨old, hold, rfl⟩ := Option.map_eq_some_iff.1 htw
    rw [(hf old hold).1, (hf old hold).2]
    exact h i old hold
  · exact h j tw htw

theorem Owned.make (h : Owned a) (hobject : tw.object.tween = a.pool.size)
    (hending : ∀ ending, tw.onDone = some ending → ending.tween = a.pool.size) :
    Owned (a.make tw) := by
  intro j new hnew
  rw [Animator.tween?_make] at hnew
  split at hnew
  · next heq =>
    cases hnew
    exact heq ▸ ⟨hobject, hending⟩
  · exact h j new hnew

/-! ### Calls -/

/-- No callback is called twice, and those of the tweens that are done have been called. -/
structure CalledOnce (a : Runner α) (notes : List (Note α)) : Prop where
  nodup : (calledIn notes).Nodup
  mem_iff : ∀ i, i ∈ calledIn notes ↔ ∃ tw, a.tween? i = some tw ∧ tw.isDone ∧ tw.onDone.isSome

namespace CalledOnce

theorem of_eq (h : CalledOnce a notes) {notes' : List (Note α)}
    (hcalled : calledIn notes' = calledIn notes)
    (htween : ∀ i, (∃ tw, a'.tween? i = some tw ∧ tw.isDone ∧ tw.onDone.isSome) ↔
      ∃ tw, a.tween? i = some tw ∧ tw.isDone ∧ tw.onDone.isSome) : CalledOnce a' notes' := by
  refine ⟨hcalled ▸ h.nodup, fun i => ?_⟩
  rw [hcalled, h.mem_iff, htween]

theorem note (h : CalledOnce a notes) {n : Note α} (hn : n.called? = none) :
    CalledOnce a (notes ++ [n]) :=
  h.of_eq (by simp [calledIn, hn]) fun _ => Iff.rfl

theorem elapse (h : CalledOnce a notes) (i : Nat) (elapsed : α) :
    CalledOnce (a.change i fun tw => { tw with elapsed }) notes :=
  h.of_eq rfl fun j => exists_tween?_change_iff j fun _ _ _ => Iff.rfl

/-- Which tweens run is no matter. -/
theorem with_running (h : CalledOnce a notes) (running : List Nat) :
    CalledOnce { a with running } notes :=
  h.of_eq rfl fun _ => Iff.rfl

theorem make (h : CalledOnce a notes) (hopen : tw.isDone = false) :
    CalledOnce (a.make tw) notes := by
  refine h.of_eq rfl fun j => exists_congr fun old => and_congr_left fun hdone =>
    ⟨fun hold => ?_, tween?_make_of_eq_some⟩
  rw [Animator.tween?_make] at hold
  split at hold
  · cases hold
    rw [hopen] at hdone
    cases hdone.1
  · exact hold

/-- A tween goes to its end, and its callback, if it has one, is called. -/
theorem ended (h : CalledOnce a notes) (htw : a.tween? i = some tw) (hopen : tw.isDone = false)
    {notes' : List (Note α)}
    (hcalled : calledIn notes' = calledIn notes ++ if tw.onDone.isSome then [i] else []) :
    CalledOnce (a.change i Tween.ended) notes' := by
  have hi : i ∉ calledIn notes := by
    rw [h.mem_iff i]
    rintro ⟨tw', htw', hdone, -⟩
    rw [htw] at htw'
    cases htw'
    rw [hopen] at hdone
    cases hdone
  refine ⟨?_, fun j => ?_⟩
  · rw [hcalled]
    refine List.Nodup.append h.nodup (by split <;> simp) fun j hj hji => ?_
    split at hji
    · cases List.mem_singleton.1 hji
      exact hi hj
    · cases hji
  · rw [hcalled, List.mem_append, h.mem_iff j]
    by_cases hij : i = j
    · subst hij
      simp [Animator.tween?_change, htw, Tween.ended, hopen]
    · rw [exists_tween?_change_iff j fun heq => absurd heq hij]
      have hnot : j ∉ (if tw.onDone.isSome then [i] else []) := by
        split <;> simp [Ne.symm hij]
      simp [hnot]

end CalledOnce

/-! ### Whereabouts -/

/-- Two tweens, or one at two times, have the same end: the same attribute, value and callback. -/
structure SameEnd (tw tw' : Motion α) : Prop where
  object : tw'.object.object = tw.object.object
  slot : tw'.slot = tw.slot
  finish : tw'.finish = tw.finish
  onDone : tw'.onDone = tw.onDone

/-- A later state of an animator: the tweens are there with the ends that they had, those that are
    done stay so, and those that ran run or are done. -/
def Follows (a a' : Runner α) : Prop :=
  ∀ i tw, a.tween? i = some tw → ∃ tw', a'.tween? i = some tw' ∧ SameEnd tw tw' ∧
    (tw.isDone → tw'.isDone) ∧ (i ∈ a.running → i ∈ a'.running ∨ tw'.isDone)

theorem Follows.change {f : Motion α → Motion α}
    (hf : ∀ tw, a.tween? i = some tw → SameEnd tw (f tw) ∧ (tw.isDone → (f tw).isDone)) :
    Follows a (a.change i f) := by
  intro j tw htw
  by_cases hij : i = j
  · subst hij
    refine ⟨f tw, ?_, (hf tw htw).1, (hf tw htw).2, .inl⟩
    rw [Animator.tween?_change, if_pos rfl, htw, Option.map_some]
  · refine ⟨tw, ?_, ⟨rfl, rfl, rfl, rfl⟩, id, .inl⟩
    rw [Animator.tween?_change, if_neg hij, htw]

theorem Follows.make : Follows a (a.make tw) :=
  fun _ old hold => ⟨old, tween?_make_of_eq_some hold, ⟨rfl, rfl, rfl, rfl⟩, id, .inl⟩

/-- Tweens that are done are swept away, and others may begin to run. -/
theorem Follows.sweep (more : List Nat) :
    Follows a { a.sweep with running := a.sweep.running ++ more } := by
  intro j tw htw
  refine ⟨tw, htw, ⟨rfl, rfl, rfl, rfl⟩, id, fun hj => ?_⟩
  cases hdone : tw.isDone with
  | true => exact .inr rfl
  | false =>
    refine .inl (List.mem_append_left _ (List.mem_filter.2 ⟨hj, ?_⟩))
    rw [Animator.isDone_of_tween? htw, hdone]
    rfl

/-- The callback that is called is that of the tween, and it finds the attribute with the value in
    which the tween is to end. -/
def AtItsEnd (a : Runner α) (notes : List (Note α)) (i : Nat)
    (name : String) : Prop :=
  ∃ tw, a.tween? i = some tw ∧ tw.onDone.map Ending.name = some name ∧
    (valuesAfter notes).get? (tw.object.object, tw.slot) = some tw.finish

theorem AtItsEnd.follow {name : String} (h : AtItsEnd a notes i name) (hfollows : Follows a a') :
    AtItsEnd a' notes i name := by
  obtain ⟨tw, htw, honDone, hend⟩ := h
  obtain ⟨tw', htw', hsame, -, -⟩ := hfollows i tw htw
  refine ⟨tw', htw', hsame.onDone ▸ honDone, ?_⟩
  rw [hsame.object, hsame.slot, hsame.finish, hend]

/-- A callback that is called finds its tween at its end, and a tween that was started runs, is
    done, or was cancelled since. -/
structure Accounted (a : Runner α) (notes : List (Note α)) : Prop where
  at_end : ∀ before calls i name after, notes = before ++ ⟨calls, .called i name⟩ :: after →
    AtItsEnd a before i name
  kept : ∀ before calls i after, notes = before ++ ⟨calls, .started i⟩ :: after →
    ∃ tw, a.tween? i = some tw ∧
      (i ∈ a.running ∨ tw.isDone ∨ CancelledIn after i tw.object.object)

namespace Accounted

theorem follow (h : Accounted a notes) (hfollows : Follows a a') : Accounted a' notes := by
  refine ⟨fun before calls i name after heq => ?_, fun before calls i after heq => ?_⟩
  · exact (h.at_end before calls i name after heq).follow hfollows
  · obtain ⟨tw, htw, hkept⟩ := h.kept before calls i after heq
    obtain ⟨tw', htw', hsame, hdone, hruns⟩ := hfollows i tw htw
    refine ⟨tw', htw', ?_⟩
    rcases hkept with hrunning | hover | hcancelled
    · rcases hruns hrunning with hrunning' | hover
      · exact .inl hrunning'
      · exact .inr (.inl hover)
    · exact .inr (.inl (hdone hover))
    · exact .inr (.inr (hsame.object ▸ hcancelled))

theorem note (h : Accounted a notes) {n : Note α}
    (hcalled : ∀ i name, n.event = .called i name → AtItsEnd a notes i name)
    (hstarted : ∀ i, n.event = .started i → i ∈ a.running ∧ ∃ tw, a.tween? i = some tw) :
    Accounted a (notes ++ [n]) := by
  refine ⟨fun before calls i name after heq => ?_, fun before calls i after heq => ?_⟩
  · rcases eq_or_of_concat_eq heq with ⟨rfl, rfl, -⟩ | ⟨earlier, -, hnotes⟩
    · exact hcalled i name rfl
    · exact h.at_end before calls i name earlier hnotes
  · rcases eq_or_of_concat_eq heq with ⟨-, rfl, -⟩ | ⟨earlier, rfl, hnotes⟩
    · obtain ⟨hrunning, tw, htw⟩ := hstarted i rfl
      exact ⟨tw, htw, .inl hrunning⟩
    · obtain ⟨tw, htw, hkept⟩ := h.kept before calls i earlier hnotes
      exact ⟨tw, htw, hkept.imp_right (.imp_right (CancelledIn.concat · n))⟩

/-- The tweens on an object are taken away, and it is noted which ones ran. -/
theorem cancel {b : Board α} (h : Accounted b.animator notes) (calls : List Call)
    (object : String) : Accounted (b.animator.cancel ⟨object, 0⟩)
      (notes ++ [⟨calls, .cancelled object (b.runningOn object)⟩]) := by
  refine ⟨fun before calls i name after heq => ?_, fun before calls' i after heq => ?_⟩
  · rcases eq_or_of_concat_eq heq with ⟨-, hn, -⟩ | ⟨earlier, -, hnotes⟩
    · cases hn
    · exact h.at_end before calls i name earlier hnotes
  · rcases eq_or_of_concat_eq heq with ⟨-, hn, -⟩ | ⟨earlier, rfl, hnotes⟩
    · cases hn
    · obtain ⟨tw, htw, hkept⟩ := h.kept before calls' i earlier hnotes
      refine ⟨tw, htw, ?_⟩
      rcases hkept with hrunning | hover | hcancelled
      · by_cases hi : i ∈ b.runningOn object
        · obtain ⟨-, tw', htw', rfl⟩ := Board.mem_runningOn_iff.1 hi
          cases htw.symm.trans htw'
          exact .inr (.inr ⟨calls, _, List.mem_append_right _ List.mem_cons_self, hi⟩)
        · exact .inl (Board.mem_running_cancel_iff.2 ⟨hrunning, hi⟩)
      · exact .inr (.inl hover)
      · exact .inr (.inr (hcancelled.concat _))

end Accounted

/-! ### Boards -/

/-- What holds of a board from move to move. -/
structure Settling (b : Board α) : Prop where
  owned : Owned b.animator
  called : CalledOnce b.animator b.journal.toList
  accounted : Accounted b.animator b.journal.toList

theorem get?_give (calls : List Call) (b : Board α) (tw : Motion α) (value : TweenValue α) :
    (valuesAfter (b.give calls tw value).journal.toList).get? (tw.object.object, tw.slot) =
      some value := by
  rw [Board.give, Board.note, Trail.toList_push, valuesAfter, List.foldl_append]
  exact (Table.get?_put _ _ _ _).trans (if_pos rfl)

theorem Settling.give {b : Board α} (h : Settling b) (calls : List Call)
    (tw : Motion α) (value : TweenValue α) :
    Settling (b.give calls tw value) := by
  refine ⟨h.owned, ?_, ?_⟩
  · rw [Board.give, Board.note, Trail.toList_push]
    exact h.called.note rfl
  · rw [Board.give, Board.note, Trail.toList_push]
    exact h.accounted.note (fun i name hn => by cases hn) fun i hn => by cases hn

theorem Settling.conclude {b : Board α} (h : Settling b) (calls : List Call)
    (htw : b.animator.tween? i = some tw) (hopen : tw.isDone = false) :
    Settling (b.conclude calls i tw) := by
  have hgave : Settling (b.give calls tw tw.finish) := h.give calls tw tw.finish
  have howned : Owned (b.animator.change i Tween.ended) := h.owned.change fun _ _ => ⟨rfl, rfl⟩
  have hfollows : Follows b.animator (b.animator.change i Tween.ended) :=
    Follows.change fun _ _ => ⟨⟨rfl, rfl, rfl, rfl⟩, fun _ => rfl⟩
  have haccounted := hgave.accounted.follow hfollows
  unfold Board.conclude
  split
  · next ending honDone =>
    have hi : ending.tween = i := (h.owned i tw htw).2 ending honDone
    refine ⟨howned, hgave.called.ended htw hopen ?_, ?_⟩
    · simp [Board.note, Board.withAnimator, calledIn, Note.called?, honDone, hi]
    · rw [Board.note, Trail.toList_push]
      refine haccounted.note (fun j name hn => ?_) fun j hn => by cases hn
      cases hn
      refine ⟨tw.ended, ?_, congrArg _ honDone, get?_give calls b tw tw.finish⟩
      rw [hi, Animator.tween?_change, if_pos rfl, htw, Option.map_some]
  · next honDone =>
    exact ⟨howned, hgave.called.ended htw hopen (by simp [Board.withAnimator, honDone]), haccounted⟩

theorem Settling.start {b : Board α} (h : Settling b) (calls : List Call)
    (hmade : i < b.animator.pool.size) : Settling (b.start calls i) := by
  refine ⟨h.owned, ?_, ?_⟩
  · rw [Board.start, Board.note, Trail.toList_push]
    exact (h.called.with_running _).note rfl
  · rw [Board.start, Board.note, Trail.toList_push]
    have hswept := h.accounted.follow (Follows.sweep [i])
    refine hswept.note (fun j name hn => by cases hn) fun j hn => ?_
    cases hn
    exact ⟨List.mem_append_right _ List.mem_cons_self, _, Array.getElem?_eq_getElem hmade⟩

theorem Settling.cancel {b : Board α} (h : Settling b) (calls : List Call) (object : String) :
    Settling ((b.withAnimator (·.cancel ⟨object, 0⟩)).note calls
      (.cancelled object (b.runningOn object))) := by
  refine ⟨h.owned, ?_, ?_⟩
  · rw [Board.note, Trail.toList_push]
    exact (h.called.with_running _).note rfl
  · rw [Board.note, Trail.toList_push]
    exact h.accounted.cancel calls object

/-- What holds of a board is kept by every move. -/
theorem Settling.move {s s' : Standing α} (hs : Settling s.board) (h : Move s s') :
    Settling s'.board := by
  cases h with
  | begin | leave => exact ⟨hs.owned, hs.called, hs.accounted⟩
  | make calls b name tw hopen hobject hending =>
    exact ⟨hs.owned.make hobject hending, hs.called.make hopen, hs.accounted.follow Follows.make⟩
  | elapse calls b i elapsed =>
    exact ⟨hs.owned.change fun _ _ => ⟨rfl, rfl⟩, hs.called.elapse i elapsed,
      hs.accounted.follow (Follows.change fun _ _ => ⟨⟨rfl, rfl, rfl, rfl⟩, id⟩)⟩
  | give call calls b i tw => exact hs.give _ tw _
  | conclude call calls b i tw htw hopen => exact hs.conclude _ htw hopen
  | sweep calls b =>
    refine ⟨hs.owned, hs.called.with_running _, hs.accounted.follow ?_⟩
    have hswept := Follows.sweep (a := b.animator) []
    rwa [List.append_nil] at hswept
  | start calls b i hmade => exact hs.start calls hmade
  | cancel call calls b object => exact hs.cancel _ object

/-! ### Rehearsals -/

theorem settling_empty (objects : List String) : Settling ({ objects } : Board α) := by
  have hnone (i : Nat) : Animator.tween? ({ objects } : Board α).animator i = none := by
    simp [Animator.tween?]
  refine ⟨fun i tw htw => ?_, ⟨List.nodup_nil, fun i => ?_⟩,
    ⟨fun before calls i name after heq => ?_, fun before calls i after heq => ?_⟩⟩
  · rw [hnone] at htw
    cases htw
  · refine iff_of_false List.not_mem_nil ?_
    rintro ⟨tw, htw, -⟩
    rw [hnone] at htw
    cases htw
  · simp at heq
  · simp at heq

theorem settling_rehearse [Scalar α] {objects : List String} {ops : List (CueOp α)}
    {outcome : Outcome α} (h : outcome ∈ rehearse objects ops) : Settling outcome.2 :=
  (rehearse_moves h).keeps (I := fun s => Settling s.board) (fun _ _ hmove hs => hs.move hmove)
    (settling_empty objects)

/-- Whatever operations a sheet has, and whatever operations its tweens play at their ends: no
    callback is called twice; each finds its attribute with the end value of its tween; and a tween
    that was started and does not run any more when an operation is over is done, its callback
    called, or its object has been cancelled since it was started. -/
theorem tween_completes_once [Scalar α] {objects : List String} {ops : List (CueOp α)}
    {outcome : Outcome α} (h : outcome ∈ rehearse objects ops) :
    let animator := outcome.2.animator
    let notes := outcome.2.journal.toList
    (calledIn notes).Nodup ∧
      (∀ before calls i name after, notes = before ++ ⟨calls, .called i name⟩ :: after →
        AtItsEnd animator before i name) ∧
      (∀ before calls i after, notes = before ++ ⟨calls, .started i⟩ :: after →
        i ∉ animator.running → ∃ tw, animator.tween? i = some tw ∧
          (tw.isDone ∧ (tw.onDone.isSome → i ∈ calledIn notes) ∨
            CancelledIn after i tw.object.object)) ∧
      outcome.1 ≠ .error .tooDeep := by
  intro animator notes
  have hsettling := settling_rehearse h
  refine ⟨hsettling.called.nodup, hsettling.accounted.at_end, ?_, rehearse_ne_tooDeep h⟩
  intro before calls i after heq hrest
  obtain ⟨tw, htw, hrunning | hdone | hcancelled⟩ :=
    hsettling.accounted.kept before calls i after heq
  · exact absurd hrunning hrest
  · refine ⟨tw, htw, .inl ⟨hdone, fun honDone => ?_⟩⟩
    exact (hsettling.called.mem_iff i).2 ⟨tw, htw, hdone, honDone⟩
  · exact ⟨tw, htw, .inr hcancelled⟩

/-- The callback of the first tween makes a second one and lets all run while the animator still
    updates; the third tween is cancelled. Both callbacks are called, one in the course of the
    other, and none of the three tweens is left. -/
theorem tween_completes_once_nested :
    let one : Float := Scalar.nat 1
    let step (name object : String) (duration : Float) (followUp : List (CueOp Float)) :=
      CueOp.make true name object "x" (.number Scalar.zero) (.number one) duration .linear
        Scalar.zero (some followUp)
    let ops := [step "first" "a" one [step "second" "a" one [], .update one],
      step "third" "b" (Scalar.nat 3) [], .update one, .cancel "b"]
    ∃ outcome ∈ rehearse ["a", "b"] ops, outcome.2.ended = ["first", "second"] ∧
      (calledIn outcome.2.journal.toList).Nodup := by
  intro one step ops
  have hlast := List.getElem_mem (show 3 < (rehearse ["a", "b"] ops).length from Nat.lt_succ_self 3)
  exact ⟨_, hlast, by decide +kernel, (tween_completes_once hlast).1⟩

end VisualNovel.CueSheet

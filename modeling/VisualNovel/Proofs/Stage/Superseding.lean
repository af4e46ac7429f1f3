import VisualNovel.Proofs.Stage.Completing

/-!
How many tweens drive one attribute. The look-through before a tween begins ends the tween that
drives its attribute then. The callback that this calls may start a tween on the attribute itself,
and the look-through, which goes by positions in a list that has just become shorter, may pass that
one over. Two unfinished tweens come to drive one attribute only after this has happened there.
Main statement: `attribute_driven_by_one`.
-/

namespace VisualNovel.CueSheet

open Act

variable {α : Type} {call : Call} {calls : List Call} {i j k l : Nat} {object slot : String}
  {b b' : Board α} {s s' : Standing α}

/-! ### Attributes -/

/-- Tween `i` is one for this attribute of this object. -/
def Board.OnAttribute (b : Board α) (object slot : String) (i : Nat) : Prop :=
  ∃ tw, b.animator.tween? i = some tw ∧ tw.object.object = object ∧ tw.slot = slot

/-- Tween `i` drives this attribute of this object: it runs, and it is not done. -/
structure Board.Drives (b : Board α) (object slot : String) (i : Nat) : Prop where
  running : i ∈ b.animator.running
  unfinished : b.animator.isDone i = false
  on : b.OnAttribute object slot i

theorem Board.onAttribute_iff : b.OnAttribute object slot i ↔
    (b.animator.tween? i).map (fun tw => (tw.object.object, tw.slot)) = some (object, slot) := by
  simp [OnAttribute]

instance : Decidable (b.OnAttribute object slot i) := decidable_of_iff _ Board.onAttribute_iff.symm

theorem Board.drives_iff : b.Drives object slot i ↔
    i ∈ b.animator.running ∧ b.animator.isDone i = false ∧ b.OnAttribute object slot i :=
  ⟨fun ⟨hrunning, hopen, hon⟩ => ⟨hrunning, hopen, hon⟩, fun ⟨hrunning, hopen, hon⟩ =>
    ⟨hrunning, hopen, hon⟩⟩

instance : Decidable (b.Drives object slot i) := decidable_of_iff _ Board.drives_iff.symm

theorem Board.OnAttribute.lt_size (h : b.OnAttribute object slot i) :
    i < b.animator.pool.size := by
  obtain ⟨tw, htw, -⟩ := h
  exact (Array.getElem?_eq_some_iff.1 htw).1

theorem Board.OnAttribute.of_task? (h : b.OnAttribute object slot i)
    (htask : b'.animator.task? i = b.animator.task? i) : b'.OnAttribute object slot i := by
  obtain ⟨tw, htw, hobject, hslot⟩ := h
  rw [Animator.task?, Animator.task?, htw, Option.map_some] at htask
  obtain ⟨tw', htw', heq⟩ := Option.map_eq_some_iff.1 htask
  simp only [Prod.mk.injEq] at heq
  exact ⟨tw', htw', by rw [heq.1, hobject], heq.2.1.trans hslot⟩

theorem Move.onAttribute (h : Move s s') (hk : s.board.OnAttribute object slot k) :
    s'.board.OnAttribute object slot k :=
  hk.of_task? (h.task? hk.lt_size)

theorem Board.isDone_conclude {tw : Motion α} (htw : b.animator.tween? i = some tw)
    (calls : List Call) (k : Nat) :
    (b.conclude calls i tw).animator.isDone k = if i = k then true else b.animator.isDone k := by
  have hended : (b.conclude calls i tw).animator = b.animator.change i Tween.ended := by
    unfold conclude
    split <;> rfl
  rw [hended]
  split
  · next heq =>
    subst heq
    exact Animator.isDone_change_self htw
  · next hne => exact Animator.isDone_change_of_ne hne

theorem Moves.task? (h : Moves s s') (hi : i < s.board.animator.pool.size) :
    s'.board.animator.task? i = s.board.animator.task? i := by
  induction h with
  | refl => rfl
  | tail hmoves hlast ih =>
    exact (hlast.task? (Nat.lt_of_lt_of_le hi (Moves.size_le hmoves))).trans ih

/-- A tween that is done stays done. -/
theorem Move.isDone (h : Move s s') (hk : k < s.board.animator.pool.size)
    (hdone : s.board.animator.isDone k) : s'.board.animator.isDone k := by
  cases h with
  | begin | leave | give | sweep | start | cancel => exact hdone
  | make calls b name tw => exact (Animator.isDone_make tw hk).trans hdone
  | elapse calls b i elapsed =>
    by_cases hik : i = k
    · subst hik
      have htw := Array.getElem?_eq_getElem hk
      refine (Animator.isDone_change_self htw).trans ?_
      rwa [Animator.isDone_of_tween? htw] at hdone
    · exact (Animator.isDone_change_of_ne hik).trans hdone
  | conclude call calls b i tw htw =>
    show (b.conclude (call :: calls) i tw).animator.isDone k = true
    rw [Board.isDone_conclude htw]
    split
    · rfl
    · exact hdone

/-- A tween that ran before a move and drives an attribute after it drove the attribute before. -/
theorem Move.drives (h : Move s s') (hmade : s.board.Made) (hk : k ∈ s.board.animator.running)
    (hdrives : s'.board.Drives object slot k) : s.board.Drives object slot k := by
  refine ⟨hk, ?_, hdrives.on.of_task? (h.task? (hmade k hk)).symm⟩
  by_contra hdone
  have hstays := h.isDone (hmade k hk) (Bool.of_not_eq_false hdone)
  rw [hdrives.unfinished] at hstays
  cases hstays

theorem Board.running_start (hk : k ∈ (b.start calls i).animator.running) :
    k ∈ b.animator.running ∨ k = i := by
  rcases List.mem_append.1 hk with hswept | hnew
  · exact .inl (List.mem_filter.1 hswept).1
  · exact .inr (List.mem_singleton.1 hnew)

/-! ### What is noted -/

/-- The callback of tween `i` is called, or `i` is taken away with the tweens on its object. -/
def Event.Stops (e : Event α) (i : Nat) : Prop :=
  match e with
  | .called j _ => j = i
  | .cancelled _ tweens => i ∈ tweens
  | _ => False

/-- Tween `k` was started in the course of the operation that then started tween `l`, and was not
    stopped in between: the look-through before `l` has passed it over. -/
def PassedOver (notes : List (Note α)) (k l : Nat) : Prop :=
  ∃ before calls between call rest after,
    notes = before ++ ⟨calls, .started k⟩ :: (between ++ ⟨call :: rest, .started l⟩ :: after) ∧
      call ∈ calls ∧ ∀ n ∈ between, ¬ n.event.Stops k

theorem PassedOver.append {notes : List (Note α)} (h : PassedOver notes k l)
    (more : List (Note α)) : PassedOver (notes ++ more) k l := by
  obtain ⟨before, calls, between, call, rest, after, rfl, hcall, hstops⟩ := h
  exact ⟨before, calls, between, call, rest, after ++ more, by simp, hcall, hstops⟩

/-- On this attribute a tween has been passed over before another one. -/
def Board.Slipped (b : Board α) (object slot : String) : Prop :=
  ∃ k l, b.OnAttribute object slot k ∧ b.OnAttribute object slot l ∧ k ≠ l ∧
    PassedOver b.journal.toList k l

/-- What is noted in a move is noted in the operations that go on, and a tween that drives an
    attribute after the move ran before it and was not stopped, or has just been started. -/
theorem Move.notes (h : Move s s') (howned : Owned s.board.animator) :
    ∃ new, s'.board.journal.toList = s.board.journal.toList ++ new ∧
      ∀ object slot k, s'.board.Drives object slot k →
        (k ∈ s.board.animator.running ∧ ∀ n ∈ new, ¬ n.event.Stops k) ∨
          new = [⟨s.calls, .started k⟩] := by
  cases h with
  | begin | leave | make | elapse =>
    exact ⟨[], (List.append_nil _).symm, fun _ _ _ hk => .inl ⟨hk.running, by simp⟩⟩
  | give =>
    refine ⟨[_], Trail.toList_push _ _, fun _ _ _ hk => .inl ⟨hk.running, ?_⟩⟩
    simp [Event.Stops]
  | conclude call calls b i tw htw hopen =>
    have hdrives {object slot k} (hk : (b.conclude (call :: calls) i tw).Drives object slot k) :
        k ∈ b.animator.running ∧ i ≠ k := by
      have hunfinished := hk.unfinished
      rw [Board.isDone_conclude htw] at hunfinished
      refine ⟨b.running_conclude (call :: calls) i tw ▸ hk.running, fun heq => ?_⟩
      rw [if_pos heq] at hunfinished
      cases hunfinished
    cases honDone : tw.onDone with
    | none =>
      refine ⟨[⟨call :: calls, .gave tw.object.tween tw.object.object tw.slot tw.finish⟩], ?_,
        fun _ _ _ hk => .inl ⟨(hdrives hk).1, by simp [Event.Stops]⟩⟩
      simp [Board.conclude, honDone, Board.give, Board.note, Board.withAnimator]
    | some ending =>
      refine ⟨[⟨call :: calls, .gave tw.object.tween tw.object.object tw.slot tw.finish⟩,
        ⟨call :: calls, .called ending.tween ending.name⟩], ?_,
        fun _ _ _ hk => .inl ⟨(hdrives hk).1, ?_⟩⟩
      · simp [Board.conclude, honDone, Board.give, Board.note, Board.withAnimator]
      · have hending : ending.tween = i := (howned i tw htw).2 ending honDone
        simpa [Event.Stops, hending] using (hdrives hk).2
  | sweep =>
    exact ⟨[], (List.append_nil _).symm, fun _ _ _ hk =>
      .inl ⟨(List.mem_filter.1 hk.running).1, by simp⟩⟩
  | start calls b i =>
    refine ⟨[⟨calls, .started i⟩], Trail.toList_push _ _, fun _ _ k hk => ?_⟩
    rcases Board.running_start hk.running with hrunning | rfl
    · exact .inl ⟨hrunning, by simp [Event.Stops]⟩
    · exact .inr rfl
  | cancel call calls b object =>
    refine ⟨[_], Trail.toList_push _ _, fun _ _ k hk => ?_⟩
    obtain ⟨hrunning, hother⟩ := Board.mem_running_cancel_iff.1 hk.running
    exact .inl ⟨hrunning, by simpa [Event.Stops] using hother⟩

theorem Move.slipped (h : Move s s') (howned : Owned s.board.animator)
    (hs : s.board.Slipped object slot) : s'.board.Slipped object slot := by
  obtain ⟨k, l, hk, hl, hne, hpassed⟩ := hs
  obtain ⟨new, hnew, -⟩ := h.notes howned
  exact ⟨k, l, h.onAttribute hk, h.onAttribute hl, hne, hnew ▸ hpassed.append new⟩

theorem Moves.slipped (h : Moves s s') (hs : Settling s.board)
    (hslipped : s.board.Slipped object slot) : s'.board.Slipped object slot :=
  (h.keeps (I := fun t => Settling t.board ∧ t.board.Slipped object slot)
    (fun _ _ hmove ⟨ht, hold⟩ => ⟨ht.move hmove, hmove.slipped ht.owned hold⟩) ⟨hs, hslipped⟩).2

/-! ### Operations that go on -/

/-- Operations that go on have begun. -/
def Standing.Begun (s : Standing α) : Prop := ∀ call ∈ s.calls, call.number < s.board.calls

theorem Move.calls_le (h : Move s s') : s.board.calls ≤ s'.board.calls := by
  cases h with
  | begin => exact Nat.le_succ _
  | conclude call calls b i tw =>
    refine Nat.le_of_eq ?_
    show b.calls = (b.conclude (call :: calls) i tw).calls
    unfold Board.conclude
    split <;> rfl
  | _ => exact Nat.le_refl _

/-- An operation that goes on after a move went on before it, or it has just begun. -/
theorem Move.mem_calls (h : Move s s') (hcall : call ∈ s'.calls) :
    call ∈ s.calls ∨ (call.number = s.board.calls ∧ s'.board.calls = s.board.calls + 1) := by
  cases h with
  | begin kind calls b =>
    rcases List.mem_cons.1 hcall with rfl | hold
    · exact .inr ⟨rfl, rfl⟩
    · exact .inl hold
  | leave call' calls b => exact .inl (List.mem_cons_of_mem call' hcall)
  | _ => exact .inl hcall

theorem Move.begun (h : Move s s') (hs : s.Begun) : s'.Begun := by
  intro call hcall
  rcases h.mem_calls hcall with hold | ⟨hnumber, hcalls⟩
  · exact Nat.lt_of_lt_of_le (hs call hold) h.calls_le
  · omega

/-- Since board `b`, tween `k` was started in the course of an operation, and it was not stopped
    after that. -/
def StartedIn (call : Call) (b b' : Board α) (k : Nat) : Prop :=
  ∃ before calls after,
    b'.journal.toList = b.journal.toList ++ before ++ ⟨calls, .started k⟩ :: after ∧
      call ∈ calls ∧ ∀ n ∈ after, ¬ n.event.Stops k

/-- How things stand in the course of an operation, which has begun before board `b` was there: a
    tween that drives an attribute drove it on board `b`, or it was started since. -/
structure Since (call : Call) (b : Board α) (s : Standing α) : Prop where
  made : s.board.Made
  settling : Settling s.board
  begun : call.number < s.board.calls
  grown : ∃ new, s.board.journal.toList = b.journal.toList ++ new
  driven : call ∈ s.calls → ∀ object slot k, s.board.Drives object slot k →
    b.Drives object slot k ∨ StartedIn call b s.board k

theorem Since.move (hs : Since call b s) (h : Move s s') : Since call b s' := by
  obtain ⟨new, hnew, hstopped⟩ := h.notes hs.settling.owned
  obtain ⟨old, hold⟩ := hs.grown
  refine ⟨h.made hs.made, hs.settling.move h, Nat.lt_of_lt_of_le hs.begun h.calls_le,
    ⟨old ++ new, by rw [hnew, hold, List.append_assoc]⟩, fun hcall object slot k hk => ?_⟩
  have hgoesOn : call ∈ s.calls := by
    rcases h.mem_calls hcall with hgoesOn | ⟨hnumber, -⟩
    · exact hgoesOn
    · exact absurd hnumber (Nat.ne_of_lt hs.begun)
  rcases hstopped object slot k hk with ⟨hrunning, hkept⟩ | rfl
  · rcases hs.driven hgoesOn object slot k (h.drives hs.made hrunning hk) with
      hdrove | ⟨before, calls, after, hjournal, hin, hafter⟩
    · exact .inl hdrove
    · refine .inr ⟨before, calls, after ++ new, by rw [hnew, hjournal]; simp, hin, ?_⟩
      exact fun n hn => (List.mem_append.1 hn).elim (hafter n) (hkept n)
  · exact .inr ⟨old, s.calls, [], by rw [hnew, hold], hgoesOn, by simp⟩

/-- A tween that drives an attribute after some moves, in the midst of an operation, drove it before
    them or was started in the course of that operation. -/
theorem Moves.driven (h : Moves ⟨call :: calls, b⟩ ⟨call :: calls, b'⟩) (hmade : b.Made)
    (hsettling : Settling b) (hbegun : call.number < b.calls)
    (hk : b'.Drives object slot k) : b.Drives object slot k ∨ StartedIn call b b' k :=
  have hsince : Since call b ⟨call :: calls, b⟩ :=
    ⟨hmade, hsettling, hbegun, ⟨[], (List.append_nil _).symm⟩, fun _ _ _ _ => .inl⟩
  (h.keeps (fun _ _ hmove hs => hs.move hmove) hsince).driven List.mem_cons_self object slot k hk

theorem StartedIn.of_grown {b₀ : Board α} (h : StartedIn call b b' k) {new : List (Note α)}
    (hgrown : b.journal.toList = b₀.journal.toList ++ new) : StartedIn call b₀ b' k := by
  obtain ⟨before, calls, after, hjournal, hin, hafter⟩ := h
  refine ⟨new ++ before, calls, after, ?_, hin, hafter⟩
  rw [hjournal, hgrown, List.append_assoc _ new]

/-! ### The look-through -/

theorem drivesSame_iff {tw other : Motion α} :
    other.drivesSame tw ↔ other.object.object = tw.object.object ∧ other.slot = tw.slot := by
  show (other.object.object == tw.object.object && other.slot == tw.slot) = true ↔ _
  simp

/-- A look-through that is at the end of the list has come past all that run. -/
theorem Board.not_drives_of_past {position : Nat}
    (hpast : ∀ q < position, ∀ j, b.animator.running[q]? = some j → ¬ b.Drives object slot j)
    (hlength : b.animator.running.length ≤ position) (k : Nat) : ¬ b.Drives object slot k := by
  intro hk
  obtain ⟨q, hq, hrunning⟩ := List.getElem_of_mem hk.running
  refine hpast q (Nat.lt_of_lt_of_le hq hlength) k ?_ hk
  rw [List.getElem?_eq_getElem hq, hrunning]

section

variable {react : List (CueOp α) → Playing α Unit} {slack : Nat}

/-- Once the only tween that drives an attribute is at its end, whatever is played next in the
    course of an operation, a tween that drives the attribute then was started in between. -/
theorem driven_after_conclude (hreact : Reacts Moves (call :: calls) react) (hnamed : b.Named)
    (hmade : b.Made) (hsettling : Settling b) (hbegun : call.number < b.calls)
    (hone : ∀ k, b.Drives object slot k → k = j) {tw : Motion α}
    (htw : b.animator.tween? j = some tw) (hopen : tw.isDone = false) (hmay : call.MayRun j b)
    (steps position : Nat) :
    Lands (do
        (host (call :: calls) react slack).finish j
        (host (call :: calls) react slack).supersede i steps position) b fun _ b' =>
      ∀ k, b'.Drives object slot k → StartedIn call b b' k := by
  have hmove : Move ⟨call :: calls, b⟩ ⟨call :: calls, b.conclude (call :: calls) j tw⟩ :=
    .conclude call calls b j tw htw hopen hmay
  have hnone (k : Nat) : ¬ (b.conclude (call :: calls) j tw).Drives object slot k := by
    intro hk
    have hrunning : k ∈ b.animator.running := b.running_conclude (call :: calls) j tw ▸ hk.running
    have hkj : k = j := hone k (hmove.drives hmade hrunning hk)
    have hunfinished := hk.unfinished
    rw [Board.isDone_conclude htw, if_pos hkj.symm] at hunfinished
    cases hunfinished
  have hnamed' : (b.conclude (call :: calls) j tw).Named := hmove.named.2 hnamed
  have hrest : Goes Moves (call :: calls) (do
      reaction react tw
      (host (call :: calls) react slack).supersede i steps position)
      (b.conclude (call :: calls) j tw) := by
    refine Goes.bind Moves.course ?_ fun _ b' hb' =>
      Moves.course.supersede_goes hreact (hb'.named hnamed') steps position
    unfold reaction
    split
    · next ending _ => exact hreact ending.ops _ hnamed'
    · exact Goes.pure Moves.course ()
  obtain ⟨new, hnew, -⟩ := hmove.notes hsettling.owned
  have hdriven (b' : Board α)
      (hmoves : Moves ⟨call :: calls, b.conclude (call :: calls) j tw⟩ ⟨call :: calls, b'⟩) (k : Nat)
      (hk : b'.Drives object slot k) : StartedIn call b b' k := by
    rcases hmoves.driven (hmove.made hmade) (hsettling.move hmove)
      (Nat.lt_of_lt_of_le hbegun hmove.calls_le) hk with hdrove | hstarted
    · exact absurd hdrove (hnone k)
    · exact hstarted.of_grown hnew
  unfold Goes Lands at hrest
  unfold Lands
  rw [outcome_bind] at hrest ⊢
  rw [outcome_finish htw hopen]
  exact hdriven _ hrest

/-- Where at most one tween drives an attribute, the look-through before a tween begins on it comes
    past the tweens that do not drive it, without a change, and ends the one that does. A tween that
    drives the attribute after it was started in between. -/
theorem supersede_ends_driving (hreact : Reacts Moves (call :: calls) react) (hnamed : b.Named)
    (hmade : b.Made) (hsettling : Settling b) (hbegun : call.number < b.calls)
    (hone : ∀ j k, b.Drives object slot j → b.Drives object slot k → j = k)
    (hi : b.OnAttribute object slot i) (steps position : Nat)
    (hpast : ∀ q < position, ∀ j, b.animator.running[q]? = some j → ¬ b.Drives object slot j)
    (hsteps : b.animator.running.length ≤ steps + position) :
    Lands ((host (call :: calls) react slack).supersede i steps position) b fun _ b' =>
      ∀ k, b'.Drives object slot k → StartedIn call b b' k := by
  obtain ⟨tw, htw, hobject, hslot⟩ := hi
  induction steps generalizing position with
  | zero => exact fun k hk => absurd hk (Board.not_drives_of_past hpast (by omega) k)
  | succ steps ih =>
    refine Lands.get_bind ?_
    simp only [host_animator, htw]
    split
    · next hnone =>
      have hlength := List.getElem?_eq_none_iff.1 hnone
      exact fun k hk => absurd hk (Board.not_drives_of_past hpast hlength k)
    · next j hj =>
      have hnext (hnot : ¬ b.Drives object slot j) :
          Lands ((host (call :: calls) react slack).supersede i steps (position + 1)) b
            fun _ b' => ∀ k, b'.Drives object slot k → StartedIn call b b' k := by
        refine ih (position + 1) (fun q hq j' hj' => ?_) (by omega)
        rcases Nat.lt_succ_iff_lt_or_eq.1 hq with hlt | rfl
        · exact hpast q hlt j' hj'
        · cases hj.symm.trans hj'
          exact hnot
      cases hother : b.animator.tween? j with
      | none =>
        refine hnext fun hdrives => ?_
        obtain ⟨other, hother', -⟩ := hdrives.on
        cases hother.symm.trans hother'
      | some other =>
        have hdone := Animator.isDone_of_tween? hother
        dsimp only
        split
        · next hsame =>
          obtain ⟨hobject', hslot'⟩ := drivesSame_iff.1 hsame
          cases hopen : other.isDone with
          | true =>
            rw [hopen] at hdone
            unfold Lands
            rw [outcome_bind_of_ok (outcome_finish_of_isDone hdone)]
            refine hnext fun hdrives => ?_
            cases hdone.symm.trans hdrives.unfinished
          | false =>
            have hrunning := List.mem_of_getElem? hj
            have hdrives : b.Drives object slot j := ⟨hrunning, hdone.trans hopen, other, hother,
              hobject'.trans hobject, hslot'.trans hslot⟩
            exact driven_after_conclude hreact hnamed hmade hsettling hbegun
              (fun k hk => hone k j hk hdrives) hother hopen (.inr (.inr hrunning)) steps _
        · next hsame =>
          refine hnext fun hdrives => hsame (drivesSame_iff.2 ?_)
          obtain ⟨other', hother', hobject', hslot'⟩ := hdrives.on
          cases hother.symm.trans hother'
          exact ⟨hobject'.trans hobject.symm, hslot'.trans hslot.symm⟩

end

/-! ### One tween for each attribute -/

/-- On each attribute a tween has been passed over, or at most one drives it. -/
structure Proper (s : Standing α) : Prop where
  made : s.board.Made
  settling : Settling s.board
  begun : s.Begun
  single : ∀ object slot, ¬ s.board.Slipped object slot →
    ∀ i j, s.board.Drives object slot i → s.board.Drives object slot j → i = j

theorem Proper.move (hs : Proper s) (h : Move s s')
    (hrunning : s'.board.animator.running ⊆ s.board.animator.running) : Proper s' := by
  refine ⟨h.made hs.made, hs.settling.move h, h.begun hs.begun,
    fun object slot hslipped i j hi hj => ?_⟩
  refine hs.single object slot (fun hold => hslipped (h.slipped hs.settling.owned hold)) i j ?_ ?_
  · exact h.drives hs.made (hrunning hi.running) hi
  · exact h.drives hs.made (hrunning hj.running) hj

/-- A tween begins after its look-through. If none has been passed over on its attribute then, it is
    the only one that drives it. -/
theorem Proper.start (hs : Proper ⟨call :: calls, b'⟩) (hi : i < b'.animator.pool.size)
    (hstarted : ∀ object slot, b'.OnAttribute object slot i → ¬ b'.Slipped object slot →
      ∀ k, b'.Drives object slot k → StartedIn call b b' k) :
    Proper ⟨call :: calls, b'.start (call :: calls) i⟩ := by
  have hmove : Move ⟨call :: calls, b'⟩ ⟨call :: calls, b'.start (call :: calls) i⟩ :=
    .start _ b' i hi
  refine ⟨hmove.made hs.made, hs.settling.move hmove, hmove.begun hs.begun,
    fun object slot hslipped j k hj hk => ?_⟩
  have hnot : ¬ b'.Slipped object slot := fun h => hslipped (hmove.slipped hs.settling.owned h)
  have hdrove {j : Nat} (hj : (b'.start (call :: calls) i).Drives object slot j) (hne : j ≠ i) :
      b'.Drives object slot j :=
    hmove.drives hs.made ((Board.running_start hj.running).resolve_right hne) hj
  have halone (hon : (b'.start (call :: calls) i).OnAttribute object slot i) {j : Nat}
      (hj : (b'.start (call :: calls) i).Drives object slot j) : j = i := by
    by_contra hne
    obtain ⟨before, within, after, hjournal, hin, hafter⟩ :=
      hstarted object slot (hon.of_task? rfl) hnot j (hdrove hj hne)
    refine hslipped ⟨j, i, hj.on, hon, hne, b.journal.toList ++ before, within, after, call, calls,
      [], ?_, hin, hafter⟩
    rw [Board.start, Board.note, Trail.toList_push, Board.withAnimator, hjournal]
    simp
  by_cases hji : j = i
  · subst hji
    exact (halone hj.on hk).symm
  by_cases hki : k = i
  · subst hki
    exact halone hk.on hj
  · exact hs.single object slot hnot j k (hdrove hj hji) (hdrove hk hki)

/-- The relation by which a sheet is played: from move to move, and what is proper stays so. -/
def StaysProper (s s' : Standing α) : Prop := Moves s s' ∧ (Proper s → Proper s')

theorem StaysProper.course : Course (StaysProper : Standing α → Standing α → Prop) where
  refl _ := ⟨.refl, id⟩
  trans h h' := ⟨h.1.trans h'.1, h'.2 ∘ h.2⟩
  moves h := h.1
  move h hrunning := ⟨.single h, fun hs => hs.move h hrunning⟩

theorem StaysProper.starts : Starts (StaysProper : Standing α → Standing α → Prop) := by
  intro call calls react slack i b hreact hnamed hi
  have hmoves : Reacts Moves (call :: calls) react := fun ops b' hb' => (hreact ops b' hb').1
  refine ⟨Moves.starts hmoves hnamed hi, fun hs => ?_⟩
  have hsupersede : Goes StaysProper (call :: calls) ((host (call :: calls) react slack).supersede i
      (b.animator.running.length + slack) 0) b := course.supersede_goes hreact hnamed _ 0
  unfold Goes Lands at hsupersede
  rw [outcome_start]
  split
  · next b' h =>
    rw [h] at hsupersede
    obtain ⟨hmoves', hproper⟩ := hsupersede
    refine Proper.start (b := b) (hproper hs) (Nat.lt_of_lt_of_le hi hmoves'.size_le)
      fun object slot hon hslipped k hk => ?_
    have hone : ∀ j k, b.Drives object slot j → b.Drives object slot k → j = k :=
      hs.single object slot fun hold => hslipped (hmoves'.slipped hs.settling hold)
    have hended : Lands ((host (call :: calls) react slack).supersede i
        (b.animator.running.length + slack) 0) b fun _ b' =>
          ∀ k, b'.Drives object slot k → StartedIn call b b' k :=
      supersede_ends_driving hmoves hnamed hs.made hs.settling (hs.begun call List.mem_cons_self)
        hone (hon.of_task? (hmoves'.task? hi).symm) _ 0
        (fun q hq => absurd hq (Nat.not_lt_zero q)) (Nat.le_add_right _ _)
    unfold Lands at hended
    rw [h] at hended
    exact hended k hk
  · next h =>
    rw [h] at hsupersede
    exact hsupersede.2 hs

/-- Whatever operations a sheet has, and whatever operations its tweens play at their ends: at most
    one tween that runs and is not done drives an attribute, unless on that attribute a tween was
    passed over, one that was started while another one was being started. An operation may fail
    wherever it is, so this holds in the midst of callbacks, too. -/
theorem attribute_driven_by_one [Scalar α] {objects : List String} {ops : List (CueOp α)}
    {outcome : Outcome α} (h : outcome ∈ rehearse objects ops) (object slot : String) :
    (∀ i j, outcome.2.Drives object slot i → outcome.2.Drives object slot j → i = j) ∨
      ∃ k l, outcome.2.OnAttribute object slot k ∧ outcome.2.OnAttribute object slot l ∧ k ≠ l ∧
        PassedOver outcome.2.journal.toList k l := by
  have hempty : Proper (⟨[], { objects }⟩ : Standing α) :=
    ⟨fun i hi => absurd hi List.not_mem_nil, settling_empty objects,
      fun call hcall => absurd hcall List.not_mem_nil,
      fun object slot _ i j hi => absurd hi.running List.not_mem_nil⟩
  have hproper := (StaysProper.course.rehearse_goes StaysProper.starts h).2 hempty
  by_cases hslipped : outcome.2.Slipped object slot
  · exact .inr hslipped
  · exact .inl (hproper.single object slot hslipped)

/-- The callback of the first tween starts a second one on the same attribute while the third one
    is being started there: the second one is passed over and runs on beside the third. -/
theorem attribute_driven_by_one_passed_over :
    let one : Float := Scalar.nat 1
    let step (name : String) (followUp : List (CueOp Float)) :=
      CueOp.make true name "a" "x" (.number Scalar.zero) (.number one) one .linear Scalar.zero
        (some followUp)
    let ops := [step "first" [step "second" []], step "third" []]
    ∃ outcome ∈ rehearse ["a"] ops, outcome.2.Drives "a" "x" 1 ∧ outcome.2.Drives "a" "x" 2 ∧
      ∃ k l, outcome.2.OnAttribute "a" "x" k ∧ outcome.2.OnAttribute "a" "x" l ∧ k ≠ l ∧
        PassedOver outcome.2.journal.toList k l := by
  intro one step ops
  let last := (rehearse ["a"] ops).get ⟨1, Nat.lt_succ_self 1⟩
  have hlast : last ∈ rehearse ["a"] ops := List.get_mem _ _
  have hthird : last.2.Drives "a" "x" 1 := by decide +kernel
  have hsecond : last.2.Drives "a" "x" 2 := by decide +kernel
  refine ⟨last, hlast, hthird, hsecond, ?_⟩
  refine (attribute_driven_by_one hlast "a" "x").resolve_left fun hone => ?_
  exact absurd (hone 1 2 hthird hsecond) (by decide)

end VisualNovel.CueSheet

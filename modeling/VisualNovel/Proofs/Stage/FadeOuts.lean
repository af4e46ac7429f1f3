import VisualNovel.Proofs.Stage.Roster

/-!
Fade-outs from beginning to end. What a command or the passing of time can do to those who stand on
stage and to the fade-outs that run is said once, as relations between two stages; from these
follows whom a fade-out takes.
-/

namespace VisualNovel

open Act

variable {α : Type}

namespace Stage

variable {s s' s'' : Stage α}

/-! ### Stages in order -/

/-- Everybody on stage has a number of its own, below the next one, and a fade-out changes the
    opacity of whoever has its number, who stands nowhere but under its name. -/
structure Orderly (s : Stage α) : Prop where
  sound : s.animator.Sound
  mixes : ∀ tw ∈ s.animator.unfinished, tw.Mixes
  standing_lt : ∀ who m, s.standing? who = some m → m < s.nextNumber
  standing_inj : ∀ who other m, s.standing? who = some m → s.standing? other = some m →
    who = other
  fades_lt : ∀ i who n, s.Fades i who n → n < s.nextNumber
  fades_alpha : ∀ i who n, s.Fades i who n → ∃ k, s.animator.task? i = some (n, .alpha, k)
  fades_own : ∀ i who n other, s.Fades i who n → s.standing? other = some n → other = who

/-- A stage stays in order when people leave, fade-outs end, and fade-outs of those who stand on
    stage begin. -/
theorem Orderly.mono (h : s.Orderly) (hsound : s'.animator.Sound)
    (hmixes : ∀ tw ∈ s'.animator.unfinished, tw.Mixes) (hnextNumber : s.nextNumber ≤ s'.nextNumber)
    (hstanding : ∀ who m, s'.standing? who = some m → s.standing? who = some m)
    (hfades : ∀ i who n, s'.Fades i who n →
      s.Fades i who n ∧ s'.animator.task? i = s.animator.task? i ∨
        s.standing? who = some n ∧ ∃ k, s'.animator.task? i = some (n, .alpha, k)) :
    s'.Orderly := by
  refine ⟨hsound, hmixes, fun who m hm => ?_, fun who other m hm hm' => ?_, fun i who n hi => ?_,
    fun i who n hi => ?_, fun i who n other hi hother => ?_⟩
  · exact Nat.lt_of_lt_of_le (h.standing_lt who m (hstanding who m hm)) hnextNumber
  · exact h.standing_inj who other m (hstanding who m hm) (hstanding other m hm')
  · rcases hfades i who n hi with ⟨hold, -⟩ | ⟨hnew, -⟩
    · exact Nat.lt_of_lt_of_le (h.fades_lt i who n hold) hnextNumber
    · exact Nat.lt_of_lt_of_le (h.standing_lt who n hnew) hnextNumber
  · rcases hfades i who n hi with ⟨hold, htask⟩ | ⟨-, hnew⟩
    · exact htask ▸ h.fades_alpha i who n hold
    · exact hnew
  · rcases hfades i who n hi with ⟨hold, -⟩ | ⟨hnew, -⟩
    · exact h.fades_own i who n other hold (hstanding other n hother)
    · exact h.standing_inj other who n (hstanding other n hother) hnew

/-! ### Later stages -/

/-- What stays true from one stage to a later one. Numbers and tweens are only added; a fade-out
    that has ended has taken whoever stood under its name; and an actor with a single fade-out
    stands on stage for as long as that runs. -/
structure Later (s s' : Stage α) : Prop where
  nextNumber_le : s.nextNumber ≤ s'.nextNumber
  size_le : s.animator.pool.size ≤ s'.animator.pool.size
  task : ∀ i < s.animator.pool.size, s'.animator.task? i = s.animator.task? i
  running : ∀ i < s.animator.pool.size, i ∈ s'.animator.running → i ∈ s.animator.running
  done : ∀ i < s.animator.pool.size, s.animator.isDone i → s'.animator.isDone i
  ended_running : ∀ i < s.animator.pool.size, s.animator.isDone i = false →
    s'.animator.isDone i → i ∈ s.animator.running
  stood : ∀ who m, s'.standing? who = some m → s.standing? who = some m ∨ s.nextNumber ≤ m
  ended : ∀ i who n, s.Fades i who n → s'.animator.isDone i →
    ∀ m, s'.standing? who = some m → s.nextNumber ≤ m
  sole : ∀ i name n, s.Fades i (.actor name) n → s.standing? (.actor name) = some n →
    (∀ j k, s.Fades j (.actor name) k → j = i) → s'.Fades i (.actor name) n →
    s'.standing? (.actor name) = some n ∧ ∀ j k, s'.Fades j (.actor name) k → j = i

namespace Later

theorem refl (s : Stage α) : s.Later s where
  nextNumber_le := Nat.le_refl _
  size_le := Nat.le_refl _
  task _ _ := rfl
  running _ _ h := h
  done _ _ h := h
  ended_running _ _ hundone hdone := by simp [hundone] at hdone
  stood _ _ h := .inl h
  ended _ _ _ hfades hdone := by simp [hfades.undone] at hdone
  sole _ _ _ _ hstands hsole _ := ⟨hstands, hsole⟩

/-- A fade-out that runs and is not new has run all the time. -/
theorem fades (h : s.Later s') {i : Nat} {who : Leaving} {n : Nat}
    (hi : i < s.animator.pool.size) (hfades : s'.Fades i who n) : s.Fades i who n := by
  obtain ⟨hrunning, hundone, htask⟩ := hfades
  refine ⟨h.running i hi hrunning, ?_, h.task i hi ▸ htask⟩
  rw [← Bool.not_eq_true]
  intro hdone
  simp [h.done i hi hdone] at hundone

/-- A fade-out that ends only at the later one of two stages still runs at the first one. -/
theorem fades_of_ended (h : s.Later s') (h' : s'.Later s'') {i : Nat} {who : Leaving} {n : Nat}
    (hfades : s.Fades i who n) (hmid : s'.animator.isDone i = false)
    (hdone : s''.animator.isDone i) : s'.Fades i who n := by
  have hi' := Nat.lt_of_lt_of_le hfades.lt_size h.size_le
  exact ⟨h'.ended_running i hi' hmid hdone, hmid, (h.task i hfades.lt_size).symm ▸ hfades.task⟩

theorem trans (h : s.Later s') (h' : s'.Later s'') : s.Later s'' where
  nextNumber_le := Nat.le_trans h.nextNumber_le h'.nextNumber_le
  size_le := Nat.le_trans h.size_le h'.size_le
  task i hi := (h'.task i (Nat.lt_of_lt_of_le hi h.size_le)).trans (h.task i hi)
  running i hi hmem := h.running i hi (h'.running i (Nat.lt_of_lt_of_le hi h.size_le) hmem)
  done i hi hdone := h'.done i (Nat.lt_of_lt_of_le hi h.size_le) (h.done i hi hdone)
  ended_running i hi hundone hdone := by
    cases hmid : s'.animator.isDone i with
    | true => exact h.ended_running i hi hundone hmid
    | false =>
      have hi' := Nat.lt_of_lt_of_le hi h.size_le
      exact h.running i hi (h'.ended_running i hi' hmid hdone)
  stood who m hm := by
    rcases h'.stood who m hm with hstood | hnew
    · exact h.stood who m hstood
    · exact .inr (Nat.le_trans h.nextNumber_le hnew)
  ended i who n hfades hdone m hm := by
    -- the fade-out ends before the stage in between, or it still runs there
    cases hmid : s'.animator.isDone i with
    | true =>
      rcases h'.stood who m hm with hstood | hnew
      · exact h.ended i who n hfades hmid m hstood
      · exact Nat.le_trans h.nextNumber_le hnew
    | false =>
      have hfades' := h.fades_of_ended h' hfades hmid hdone
      exact Nat.le_trans h.nextNumber_le (h'.ended i who n hfades' hdone m hm)
  sole i name n hfades hstands hsole hafter := by
    have hmid := h'.fades (Nat.lt_of_lt_of_le hfades.lt_size h.size_le) hafter
    obtain ⟨hstands', hsole'⟩ := h.sole i name n hfades hstands hsole hmid
    exact h'.sole i name n hmid hstands' hsole' hafter

end Later

/-! ### Tweens that run -/

namespace Ran

theorem fades_iff (h : s.Ran s') {i : Nat} {who : Leaving} {n : Nat}
    (hi : i < s.animator.pool.size) :
    s'.Fades i who n ↔ s.Fades i who n ∧ s'.animator.isDone i = false := by
  constructor
  · rintro ⟨hrunning, hundone, htask⟩
    refine ⟨⟨((h.running i hi).1 hrunning).1, ?_, h.task i hi ▸ htask⟩, hundone⟩
    rw [← Bool.not_eq_true]
    intro hdone
    simp [h.done i hi hdone] at hundone
  · rintro ⟨⟨hrunning, -, htask⟩, hundone⟩
    exact ⟨(h.running i hi).2 ⟨hrunning, hundone⟩, hundone, (h.task i hi).symm ▸ htask⟩

/-- Whatever tweens do leads to a later stage, if a fade-out that begins for an actor ends the one
    that ran. -/
theorem later (h : s.Ran s') (hnew : ∀ j name k, s.animator.pool.size ≤ j →
      s'.Fades j (.actor name) k → ∀ i n, s.Fades i (.actor name) n →
      s.standing? (.actor name) = some n → s'.animator.isDone i) : s.Later s' where
  nextNumber_le := Nat.le_of_eq h.nextNumber.symm
  size_le := h.size_le
  task := h.task
  running i hi hmem := ((h.running i hi).1 hmem).1
  done := h.done
  ended_running := h.ended_running
  stood who m hm := .inl (h.standing?_of_some hm)
  ended i who n hfades hdone m hm := by
    rw [h.gone i who n hfades hdone] at hm
    cases hm
  sole i name n hfades hstands hsole hafter := by
    refine ⟨?_, fun j k hj => ?_⟩
    · rw [h.stays, hstands]
      intro j k hj
      rw [hsole j k hj]
      exact hafter.undone
    · rcases Nat.lt_or_ge j s.animator.pool.size with hlt | hge
      · exact hsole j k ((h.fades_iff hlt).1 hj).1
      · have hdone := hnew j name k hge hj i n hfades hstands
        rw [hafter.undone] at hdone
        cases hdone

end Ran

namespace Began

variable {number : Nat} {slot : Slot} {ack : Acknowledgement} {who : Leaving}

/-- The only fade-out that can be new is the tween that began. -/
theorem new_fades (h : s.Began number slot ack s') {i : Nat} {other : Leaving} {n : Nat}
    (hi : s.animator.pool.size ≤ i) (hfades : s'.Fades i other n) :
    i = s.animator.pool.size ∧ n = number ∧ ack.leaving = some other := by
  have hlt := hfades.lt_size
  rw [h.size] at hlt
  obtain rfl : i = s.animator.pool.size := by omega
  obtain ⟨slot', command, htask⟩ := hfades.task
  rw [h.new_task] at htask
  simp only [Option.some.injEq, Prod.mk.injEq] at htask
  exact ⟨rfl, htask.1.symm, by rw [htask.2.2]⟩

/-- What a new tween ends took whom it faded. -/
theorem own (h : s.Began number slot ack s') (hs : s.Orderly)
    (hstands : s.standing? who = some number) {i : Nat} {other : Leaving} {n : Nat}
    (hfades : s.Fades i other n) (hdone : s'.animator.isDone i) : s.standing? other = some n := by
  obtain ⟨k, htask⟩ := (h.ended_iff i hfades.running).1 hdone
  obtain ⟨slot', command, htask'⟩ := hfades.task
  rw [htask] at htask'
  simp only [Option.some.injEq, Prod.mk.injEq] at htask'
  obtain rfl : number = n := htask'.1
  exact hs.fades_own i other number who hfades hstands ▸ hstands

/-- A fade-out that begins ends the one that fades the same. -/
theorem ends (h : s.Began number .alpha ack s') (hs : s.Orderly) {i : Nat} {other : Leaving}
    (hfades : s.Fades i other number) : s'.animator.isDone i :=
  (h.ended_iff i hfades.running).2 (hs.fades_alpha i other number hfades)

theorem orderly (h : s.Began number slot ack s') (hs : s.Orderly) (hsound : s'.animator.Sound)
    (hmixes : ∀ tw ∈ s'.animator.unfinished, tw.Mixes) (hstands : s.standing? who = some number)
    (hleaving : ∀ other, ack.leaving = some other → other = who ∧ slot = .alpha) :
    s'.Orderly := by
  refine hs.mono hsound hmixes (Nat.le_of_eq h.nextNumber.symm)
    (fun _ _ hm => h.standing?_of_some hm) fun i other n hfades => ?_
  rcases Nat.lt_or_ge i s.animator.pool.size with hlt | hge
  · exact .inl ⟨((h.fades_iff hlt).1 hfades).1, h.task i hlt⟩
  · obtain ⟨rfl, rfl, hother⟩ := h.new_fades hge hfades
    obtain ⟨rfl, rfl⟩ := hleaving other hother
    exact .inr ⟨hstands, _, h.new_task⟩

theorem later (h : s.Began number slot ack s') (hs : s.Orderly)
    (hstands : s.standing? who = some number)
    (hleaving : ∀ other, ack.leaving = some other → other = who ∧ slot = .alpha) :
    s.Later s' := by
  -- a new fade-out of an actor is on the same attribute as the old one, and supersedes it
  refine h.toRan.later fun j name k hj hfades i n hbefore hn => ?_
  obtain ⟨rfl, rfl, hother⟩ := h.new_fades hj hfades
  obtain ⟨rfl, rfl⟩ := hleaving _ hother
  rw [hstands] at hn
  cases hn
  exact h.ends hs hbefore

end Began

/-! ### What commands do -/

theorem fades_congr (h : s'.animator = s.animator) {i : Nat} {who : Leaving} {n : Nat} :
    s'.Fades i who n ↔ s.Fades i who n := by
  constructor
  · rintro ⟨hrunning, hundone, htask⟩
    exact ⟨h ▸ hrunning, h ▸ hundone, h ▸ htask⟩
  · rintro ⟨hrunning, hundone, htask⟩
    exact ⟨h ▸ hrunning, h ▸ hundone, h ▸ htask⟩

/-- What a part of a command does that begins no fade-out. A fade-out that it ends takes whom it
    fades. -/
structure Sets (s s' : Stage α) : Prop where
  orderly : s'.Orderly
  later : s.Later s'
  own : ∀ i who n, s.Fades i who n → s'.animator.isDone i → s.standing? who = some n
  no_new : ∀ i who n, s.animator.pool.size ≤ i → ¬ s'.Fades i who n

namespace Sets

theorem trans (hs : s.Orderly) (h : s.Sets s') (h' : s'.Sets s'') : s.Sets s'' where
  orderly := h'.orderly
  later := h.later.trans h'.later
  own i who n hfades hdone := by
    cases hmid : s'.animator.isDone i with
    | true => exact h.own i who n hfades hmid
    | false =>
      have hfades' := h.later.fades_of_ended h'.later hfades hmid hdone
      rcases h.later.stood who n (h'.own i who n hfades' hdone) with hstood | hnew
      · exact hstood
      · exact absurd (hs.fades_lt i who n hfades) (Nat.not_lt_of_le hnew)
  no_new i who n hi hfades := by
    rcases Nat.lt_or_ge i s'.animator.pool.size with hlt | hge
    · exact h.no_new i who n hi (h'.later.fades hlt hfades)
    · exact h'.no_new i who n hge hfades

/-- Somebody may come on stage or leave while the tweens are let alone, but for an actor whom a
    fade-out fades. -/
theorem of_animator_eq (hs : s.Orderly) (hanimator : s'.animator = s.animator)
    (hnextNumber : s.nextNumber ≤ s'.nextNumber)
    (hstood : ∀ who m, s'.standing? who = some m →
      s.standing? who = some m ∨ m = s.nextNumber ∧ m < s'.nextNumber)
    (hnew : ∀ who other, s'.standing? who = some s.nextNumber →
      s'.standing? other = some s.nextNumber → who = other)
    (hkept : ∀ i name n, s.Fades i (.actor name) n → s.standing? (.actor name) = some n →
      s'.standing? (.actor name) = some n) : s.Sets s' where
  orderly := by
    refine ⟨hanimator ▸ hs.sound, hanimator ▸ hs.mixes, fun who m hm => ?_,
      fun who other m hm hm' => ?_, fun i who n hi => ?_, fun i who n hi => ?_,
      fun i who n other hi hother => ?_⟩
    · rcases hstood who m hm with hold | ⟨-, hlt⟩
      · exact Nat.lt_of_lt_of_le (hs.standing_lt who m hold) hnextNumber
      · exact hlt
    · rcases hstood who m hm with hold | ⟨rfl, -⟩
      · rcases hstood other m hm' with hold' | ⟨rfl, -⟩
        · exact hs.standing_inj who other m hold hold'
        · exact absurd (hs.standing_lt who _ hold) (Nat.lt_irrefl _)
      · exact hnew who other hm hm'
    · exact Nat.lt_of_lt_of_le (hs.fades_lt i who n ((fades_congr hanimator).1 hi)) hnextNumber
    · exact hanimator ▸ hs.fades_alpha i who n ((fades_congr hanimator).1 hi)
    · have hbefore := (fades_congr hanimator).1 hi
      rcases hstood other n hother with hold | ⟨rfl, -⟩
      · exact hs.fades_own i who n other hbefore hold
      · exact absurd (hs.fades_lt i who _ hbefore) (Nat.lt_irrefl _)
  later := {
    nextNumber_le := hnextNumber
    size_le := hanimator ▸ Nat.le_refl _
    task := fun i _ => by rw [hanimator]
    running := fun i _ hmem => hanimator ▸ hmem
    done := fun i _ hdone => by rw [hanimator, hdone]
    ended_running := fun i _ hundone hdone => by simp [hanimator, hundone] at hdone
    stood := fun who m hm => (hstood who m hm).imp_right fun h => Nat.le_of_eq h.1.symm
    ended := fun i who n hfades hdone => by simp [hanimator, hfades.undone] at hdone
    sole := fun i name n hfades hstands hsole _ =>
      ⟨hkept i name n hfades hstands, fun j k hj => hsole j k ((fades_congr hanimator).1 hj)⟩ }
  own i who n hfades hdone := by simp [hanimator, hfades.undone] at hdone
  no_new i who n hi hfades :=
    absurd ((fades_congr hanimator).1 hfades).lt_size (Nat.not_lt_of_le hi)

/-- Nobody comes, leaves or begins to fade. -/
theorem of_standing_eq (hs : s.Orderly) (hanimator : s'.animator = s.animator)
    (hnextNumber : s'.nextNumber = s.nextNumber)
    (hstanding : ∀ who, s'.standing? who = s.standing? who) : s.Sets s' := by
  refine of_animator_eq hs hanimator (Nat.le_of_eq hnextNumber.symm) (fun who m hm => ?_)
    (fun who other hm _ => ?_) fun i name n _ hstands => ?_
  · exact .inl (hstanding who ▸ hm)
  · exact absurd (hs.standing_lt who _ (hstanding who ▸ hm)) (Nat.lt_irrefl _)
  · rw [hstanding, hstands]

protected theorem refl (hs : s.Orderly) : s.Sets s :=
  of_standing_eq hs rfl rfl fun _ => rfl

/-- Whoever stands under a name leaves. -/
theorem of_standing_eq_none (hs : s.Orderly) (who : Leaving)
    (hclear : ∀ m, s.standing? who = some m → ∀ i, ¬ s.Fades i who m)
    (hanimator : s'.animator = s.animator) (hnextNumber : s'.nextNumber = s.nextNumber)
    (hstanding : ∀ other, s'.standing? other = if other = who then none else s.standing? other) :
    s.Sets s' := by
  have hstood (other : Leaving) (m : Nat) (hm : s'.standing? other = some m) :
      s.standing? other = some m := by
    rw [hstanding] at hm
    split at hm
    · cases hm
    · exact hm
  refine of_animator_eq hs hanimator (Nat.le_of_eq hnextNumber.symm)
    (fun other m hm => .inl (hstood other m hm)) (fun other _ hm _ => ?_)
    fun i name n hfades hstands => ?_
  · exact absurd (hs.standing_lt other _ (hstood other _ hm)) (Nat.lt_irrefl _)
  · rw [hstanding, if_neg, hstands]
    rintro rfl
    exact hclear n hstands i hfades

/-- Somebody comes on stage under a name. -/
theorem of_standing_eq_some (hs : s.Orderly) (who : Leaving)
    (hclear : ∀ name, who = .actor name → ∀ m, s.standing? who = some m → ∀ i, ¬ s.Fades i who m)
    (hanimator : s'.animator = s.animator) (hnextNumber : s'.nextNumber = s.nextNumber + 1)
    (hstanding : ∀ other, s'.standing? other =
      if other = who then some s.nextNumber else s.standing? other) : s.Sets s' := by
  have hwho (other : Leaving) (hm : s'.standing? other = some s.nextNumber) : other = who := by
    rw [hstanding] at hm
    split at hm
    · next heq => exact heq
    · exact absurd (hs.standing_lt other _ hm) (Nat.lt_irrefl _)
  refine of_animator_eq hs hanimator (Nat.le.intro hnextNumber.symm) (fun other m hm => ?_)
    (fun other other' hm hm' => (hwho other hm).trans (hwho other' hm').symm)
    fun i name n hfades hstands => ?_
  · rw [hstanding] at hm
    split at hm
    · cases hm
      exact .inr ⟨rfl, hnextNumber ▸ Nat.lt_succ_self _⟩
    · exact .inl hm
  · rw [hstanding, if_neg, hstands]
    rintro rfl
    exact hclear name rfl n hstands i hfades

/-- The tweens on somebody are dropped, fade-outs and others. -/
theorem of_cancel (hs : s.Orderly) (number : Nat)
    (hs' : s' = { s with animator := s.animator.cancel number }) :
    s.Sets s' ∧ ∀ i who, ¬ s'.Fades i who number := by
  subst hs'
  have hsub {i : Nat} {who : Leaving} {n : Nat}
      (h : Stage.Fades { s with animator := s.animator.cancel number } i who n) :
      s.Fades i who n ∧ n ≠ number := by
    obtain ⟨hrunning, hundone, slot, command, htask⟩ := h
    obtain ⟨hmem, hobject⟩ := List.mem_filter.1 hrunning
    refine ⟨⟨hmem, hundone, slot, command, htask⟩, ?_⟩
    rintro rfl
    obtain ⟨tw, htw, heq⟩ := Option.map_eq_some_iff.1 htask
    have htw' : s.animator.tween? i = some tw := htw
    simp only [Prod.mk.injEq] at heq
    simp [htw', heq.1] at hobject
  refine ⟨⟨?_, ?_, fun i who n hfades hdone => ?_, fun i who n hi hfades => ?_⟩,
    fun i who hfades => (hsub hfades).2 rfl⟩
  · refine hs.mono (hs.sound.cancel number) (fun tw htw => hs.mixes tw ?_) (Nat.le_refl _)
      (fun _ _ hm => hm) fun i who n hfades => .inl ⟨(hsub hfades).1, rfl⟩
    rw [hs.sound.unfinished_cancel] at htw
    exact List.mem_of_mem_filter htw
  · exact { Later.refl s with
      running := fun i _ hmem => (List.mem_filter.1 hmem).1
      sole := fun i name n _ hstands hsole _ =>
        ⟨hstands, fun j k hj => hsole j k (hsub hj).1⟩ }
  · exact absurd (hfades.undone.symm.trans hdone) (by simp)
  · exact absurd (hsub hfades).1.lt_size (Nat.not_lt_of_le hi)

/-- A tween begins that is no fade-out, for somebody on stage. -/
theorem of_began (hs : s.Orderly) {number : Nat} {slot : Slot} {command : Int}
    (h : s.Began number slot ⟨none, command⟩ s') (hsound : s'.animator.Sound)
    (hmixes : ∀ tw ∈ s'.animator.unfinished, tw.Mixes) {who : Leaving}
    (hstands : s.standing? who = some number) : s.Sets s' where
  orderly := h.orderly hs hsound hmixes hstands (by simp)
  later := h.later hs hstands (by simp)
  own _ _ _ := h.own hs hstands
  no_new i who n hi hfades := by simpa using (h.new_fades hi hfades).2.2

end Sets

/-- What anything does to a stage. A fade-out that begins is for whoever stands under the name; if
    no other fade-out ran under that name, the one who fades stays on stage for now. -/
structure Step (s s' : Stage α) : Prop where
  orderly : s'.Orderly
  later : s.Later s'
  begins : ∀ i who n, s.animator.pool.size ≤ i → s'.Fades i who n →
    s.standing? who = some n ∧ (∀ m, s'.standing? who = some m → s.standing? who = some m) ∧
      ((∀ j k, ¬ s.Fades j who k) →
        s'.standing? who = some n ∧ ∀ j k, s'.Fades j who k → j = i)

/-- What a command does. A fade-out that it ends takes whom it fades. -/
structure Obeys (s s' : Stage α) : Prop extends s.Step s' where
  own : ∀ i who n, s.Fades i who n → s'.animator.isDone i → s.standing? who = some n

theorem Ran.step (h : s.Ran s') (hs : s.Orderly) (hsound : s'.animator.Sound)
    (hmixes : ∀ tw ∈ s'.animator.unfinished, tw.Mixes)
    (hsize : s'.animator.pool.size = s.animator.pool.size) : s.Step s' := by
  have hlt {i : Nat} {who : Leaving} {n : Nat} (hfades : s'.Fades i who n) :
      i < s.animator.pool.size := hsize ▸ hfades.lt_size
  refine ⟨hs.mono hsound hmixes (Nat.le_of_eq h.nextNumber.symm)
    (fun _ _ hm => h.standing?_of_some hm) fun i who n hfades => .inl ⟨?_, h.task i (hlt hfades)⟩,
    h.later fun j name k hj hfades => ?_, fun i who n hi hfades => ?_⟩
  · exact ((h.fades_iff (hlt hfades)).1 hfades).1
  · exact absurd (hlt hfades) (Nat.not_lt_of_le hj)
  · exact absurd (hlt hfades) (Nat.not_lt_of_le hi)

namespace Obeys

theorem of_sets (h : s.Sets s') : s.Obeys s' :=
  ⟨⟨h.orderly, h.later, fun i who n hi hfades => absurd hfades (h.no_new i who n hi)⟩, h.own⟩

/-- A fade-out begins. -/
theorem of_began (hs : s.Orderly) {number : Nat} {who : Leaving} {command : Int}
    (h : s.Began number .alpha ⟨some who, command⟩ s') (hsound : s'.animator.Sound)
    (hmixes : ∀ tw ∈ s'.animator.unfinished, tw.Mixes)
    (hstands : s.standing? who = some number) : s.Obeys s' where
  orderly := h.orderly hs hsound hmixes hstands (by simp)
  later := h.later hs hstands (by simp)
  own _ _ _ := h.own hs hstands
  begins i other n hi hfades := by
    obtain ⟨rfl, rfl, hother⟩ := h.new_fades hi hfades
    cases hother
    refine ⟨hstands, fun m hm => h.standing?_of_some hm, fun hnone => ⟨?_, fun j k hj => ?_⟩⟩
    · rw [h.stays who fun j k hj => absurd hj (hnone j k), hstands]
    · rcases Nat.lt_or_ge j s.animator.pool.size with hlt | hge
      · exact absurd ((h.fades_iff hlt).1 hj).1 (hnone j k)
      · exact (h.new_fades hge hj).1

end Obeys

end Stage

/-! ### Carrying out -/

namespace StageAct

open Stage

variable {run : StageRun α} {c : Command}

theorem fresh_eq : Ends (fresh (α := α)) run fun n run' => n = run.stage.nextNumber ∧
    run'.stage = { run.stage with nextNumber := run.stage.nextNumber + 1 } :=
  Ends.view_bind (Ends.change_bind (Ends.pure ⟨rfl, rfl⟩))

/-- The character that a command calls for is looked up under the name of its target. -/
theorem calledCharacter_ends_get? :
    Ends (calledCharacter (α := α) c) run fun character? run' =>
      character? = run.stage.cast.characters.get? (c.target.getD "") ∧
        run'.stage = run.stage ∧ (character?.isSome → run' = run) := by
  refine Ends.view_bind ?_
  split
  · next hcharacter => exact Ends.pure ⟨hcharacter.symm, rfl, fun _ => rfl⟩
  · next hnone => exact Ends.change_bind (Ends.pure ⟨hnone.symm, rfl, fun hsome => by cases hsome⟩)

theorem calledCharacter_eq :
    Ends (calledCharacter (α := α) c) run fun _ run' => run'.stage = run.stage :=
  calledCharacter_ends_get?.mono fun _ _ hrun' => hrun'.2.1

/-- A change that has nothing to do with who stands on stage. -/
theorem change_obeys (hs : run.stage.Orderly) {f : Stage α → Stage α}
    (hanimator : (f run.stage).animator = run.stage.animator)
    (hnextNumber : (f run.stage).nextNumber = run.stage.nextNumber)
    (hstanding : ∀ who, (f run.stage).standing? who = run.stage.standing? who) :
    Lands (change f) run fun _ run' => run.stage.Obeys run'.stage :=
  Lands.change (.of_sets (.of_standing_eq hs hanimator hnextNumber hstanding))

theorem signal_obeys (hs : run.stage.Orderly) (x : Signal) :
    Lands (signal x) run fun _ run' => run.stage.Obeys run'.stage :=
  Lands.change (.of_sets (.refl hs))

variable [Scalar α]

/-- A tween that is no fade-out begins for somebody on stage. -/
theorem tween_sets (hs : run.stage.Orderly) {number : Nat} {who : Leaving}
    (hstands : run.stage.standing? who = some number) {slot : Slot} {start finish : TweenValue α}
    {duration : α} {ease : Ease} {command : Int}
    (hmixes : Tween.Mixes (⟨number, slot, start, finish, duration, ease, Scalar.zero,
      some ⟨none, command⟩, false⟩ : Tween Nat Slot Acknowledgement α)) :
    Lands (tween number slot start finish duration ease ⟨none, command⟩) run fun _ run' =>
      run.stage.Sets run'.stage :=
  Lands.of_ends ((tween_began hs.sound hs.mixes hmixes).mono fun _ _ h =>
    .of_began hs h.1 h.2.1 h.2.2 hstands)

/-- A fade-out begins for somebody on stage. -/
theorem fade_obeys (hs : run.stage.Orderly) {number : Nat} {who : Leaving}
    (hstands : run.stage.standing? who = some number) {start finish duration : α} {ease : Ease}
    {command : Int} :
    Lands (tween number .alpha (.number start) (.number finish) duration ease ⟨some who, command⟩)
      run fun _ run' => run.stage.Obeys run'.stage :=
  Lands.of_ends (Ends.mono (tween_began hs.sound hs.mixes True.intro) fun _ _ h =>
    .of_began hs h.1 h.2.1 h.2.2 hstands)

omit [Scalar α] in
/-- Somebody with a fresh number comes on stage under a name. -/
theorem comes_sets {β : Type} (hs : run.stage.Orderly) (who : Leaving)
    (hclear : ∀ name, who = .actor name → ∀ m, run.stage.standing? who = some m →
      ∀ i, ¬ run.stage.Fades i who m)
    (put : Nat → Stage α → Stage α) (f : Nat → β)
    (hanimator : ∀ n s, (put n s).animator = s.animator)
    (hnextNumber : ∀ n s, (put n s).nextNumber = s.nextNumber)
    (hput : ∀ n s other,
      (put n s).standing? other = if other = who then some n else s.standing? other) :
    Lands (do
      let number ← fresh
      change (put number)
      return f number : StageAct α β) run fun answer? run' => run.stage.Sets run'.stage ∧
        ∀ answer, answer? = some answer →
          ∃ number, f number = answer ∧ run'.stage.standing? who = some number := by
  refine Lands.bind_of_ends fresh_eq fun number run' hrun' => ?_
  obtain ⟨rfl, hstage⟩ := hrun'
  have hstanding (other : Leaving) : (put run.stage.nextNumber run'.stage).standing? other =
      if other = who then some run.stage.nextNumber else run.stage.standing? other := by
    rw [hput, hstage]
    cases other <;> rfl
  refine Lands.change_bind (Lands.pure ⟨?_, fun answer hanswer => ?_⟩)
  · refine .of_standing_eq_some hs who hclear ?_ ?_ hstanding
    · rw [hanimator, hstage]
    · rw [hnextNumber, hstage]
  · exact ⟨_, Option.some.inj hanswer, (hstanding who).trans (if_pos rfl)⟩

/-- An actor comes on stage, unless the command fails or is reported. The tweens on who stood there
    under the name are dropped before. -/
theorem enter_sets (hs : run.stage.Orderly) (character : Character) (alpha : α) :
    Lands (enter c character alpha) run fun number? run' => run.stage.Sets run'.stage ∧
      ∀ number, number? = some (some number) →
        run'.stage.standing? (.actor character.name) = some number := by
  have hrest (run : StageRun α) (hs : run.stage.Orderly)
      (hclear : ∀ m, run.stage.standing? (.actor character.name) = some m →
        ∀ i, ¬ run.stage.Fades i (.actor character.name) m)
      (actor : Nat → Position → Actor α) (hactor : ∀ n place, (actor n place).number = n) :
      Lands (do
        let place ← startPlace c.params
        let number ← fresh
        change fun s => { s with actors := s.actors.put character.name (actor number place) }
        return some number : StageAct α (Option Nat)) run fun number? run' =>
          run.stage.Sets run'.stage ∧ ∀ number, number? = some (some number) →
            run'.stage.standing? (.actor character.name) = some number := by
    refine Lands.lift_bind ⟨.refl hs, by simp⟩ fun place => ?_
    refine Lands.mono (comes_sets hs (.actor character.name) (fun _ _ => hclear)
      (fun n s => { s with actors := s.actors.put character.name (actor n place) }) some
      (fun _ _ => rfl) (fun _ _ => rfl) fun n s other => ?_) fun number? run' h => ?_
    · rw [s.standing?_putActor, hactor]
    · refine ⟨h.1, fun number hnumber => ?_⟩
      obtain ⟨n, hn, hstands⟩ := h.2 _ hnumber
      rw [hstands, hn]
  unfold enter
  dsimp only
  -- without the emotion nothing happens; else it matters whether the actor stands on stage already
  split
  · exact Lands.change_bind (Lands.pure ⟨.refl hs, by simp⟩)
  refine Lands.view_bind ?_
  cases hprevious : run.stage.actors.get? character.name with
  | some previous =>
    obtain ⟨hcancelled, hclear⟩ := Sets.of_cancel hs previous.number rfl
    refine Lands.change_bind ?_
    refine (hrest _ hcancelled.orderly (fun m hm i => ?_) _ (by exact fun _ _ => rfl)).mono
      fun number? run' h => ⟨hcancelled.trans hs h.1, h.2⟩
    have hstands : run.stage.standing? (.actor character.name) = some m := hm
    simp only [standing?, hprevious, Option.map_some, Option.some.injEq] at hstands
    exact hstands ▸ hclear i _
  | none =>
    refine hrest run hs (fun m hm => ?_) _ (by exact fun _ _ => rfl)
    simp [standing?, hprevious] at hm

/-- A command to an actor who is on stage. -/
theorem direct_obeys (hs : run.stage.Orderly) {name : String} {actor : Actor α}
    (hactor : run.stage.actors.get? name = some actor) :
    Lands (direct c name actor) run fun _ run' => run.stage.Obeys run'.stage := by
  have hstands : run.stage.standing? (.actor name) = some actor.number := by
    simp [standing?, hactor]
  unfold direct
  split
  · obtain ⟨hcancelled, hclear⟩ := Sets.of_cancel hs actor.number rfl
    refine Lands.change_bind (Lands.change (.of_sets (hcancelled.trans hs ?_)))
    refine .of_standing_eq_none hcancelled.orderly (.actor name) (fun m hm i => ?_) rfl rfl
      (standing?_remove _ (.actor name))
    rw [Option.some.inj (hm.symm.trans hstands)]
    exact hclear i _
  split
  · exact Lands.view_bind (fade_obeys hs hstands)
  split
  · refine Lands.lift_bind (.of_sets (.refl hs)) fun place => Lands.view_bind ?_
    exact Lands.mono (tween_sets hs hstands True.intro) fun _ _ h => .of_sets h
  split
  · refine Lands.lift_bind (.of_sets (.refl hs)) fun facing => ?_
    exact change_obeys hs rfl rfl (run.stage.standing?_changeActor name fun _ => rfl)
  · exact signal_obeys hs _

theorem onActor_obeys (hs : run.stage.Orderly) :
    Lands (onActor c) run fun _ run' => run.stage.Obeys run'.stage := by
  unfold onActor
  dsimp only
  split
  · refine Lands.bind_of_ends calledCharacter_eq fun character? run' hrun' => ?_
    rw [← hrun'] at hs ⊢
    cases character? with
    | none => exact Lands.pure (.of_sets (.refl hs))
    | some character =>
      exact Lands.discard ((enter_sets hs character Scalar.one).mono fun _ _ h => .of_sets h.1)
  refine Lands.lift_bind (.of_sets (.refl hs)) fun fading => ?_
  split
  · refine Lands.bind_of_ends calledCharacter_eq fun character? run' hrun' => ?_
    rw [← hrun'] at hs ⊢
    cases character? with
    | none => exact Lands.pure (.of_sets (.refl hs))
    | some character =>
      refine (enter_sets hs character Scalar.zero).then_bind (fun _ h => .of_sets h.1)
        fun number? run'' h => ?_
      cases number? with
      | none => exact Lands.pure (.of_sets h.1)
      | some number =>
        refine Lands.view_bind ?_
        refine Lands.mono (tween_sets h.1.orderly (h.2 number rfl) True.intro) fun _ _ h' => ?_
        exact .of_sets (h.1.trans hs h')
  · refine Lands.view_bind ?_
    cases hactor : run.stage.actors.get? (c.target.getD "") with
    | none => exact signal_obeys hs _
    | some actor => exact direct_obeys hs hactor

/-- An animation comes on stage, unless the command fails. The tweens on what stood there under the
    name go on. -/
theorem stageAnimation_sets (hs : run.stage.Orderly) (name : String) (sheet : SpriteSheet)
    (alpha : α) :
    Lands (stageAnimation c name sheet alpha) run fun number? run' => run.stage.Sets run'.stage ∧
      ∀ number, number? = some number →
        run'.stage.standing? (.animation name) = some number := by
  have hrest (animated : Nat → Animated α) (hanimated : ∀ n, (animated n).number = n) :
      Lands (do
        let number ← fresh
        change fun s => { s with animations := s.animations.put name (animated number) }
        return number : StageAct α Nat) run fun number? run' => run.stage.Sets run'.stage ∧
          ∀ number, number? = some number →
            run'.stage.standing? (.animation name) = some number := by
    refine Lands.mono (comes_sets hs (.animation name) (fun _ heq => by cases heq)
      (fun n s => { s with animations := s.animations.put name (animated n) }) id
      (fun _ _ => rfl) (fun _ _ => rfl) fun n s other => ?_) fun number? run' h => ?_
    · rw [s.standing?_putAnimation, hanimated]
    · refine ⟨h.1, fun number hnumber => ?_⟩
      obtain ⟨n, rfl, hstands⟩ := h.2 _ hnumber
      exact hstands
  refine Lands.view_bind ?_
  dsimp only
  split
  · refine Lands.lift_bind ⟨.refl hs, by simp⟩ fun position => ?_
    exact hrest _ (by exact fun _ => rfl)
  · refine Lands.bind_of_ends (Ends.pure (Q := fun _ run' => run' = run) rfl) ?_
    rintro position _ rfl
    exact hrest _ (by exact fun _ => rfl)

/-- A command to an animation that is on stage. -/
theorem directAnimation_obeys (hs : run.stage.Orderly) {name : String} {a : Animated α}
    (ha : run.stage.animations.get? name = some a) :
    Lands (directAnimation c name a) run fun _ run' => run.stage.Obeys run'.stage := by
  have hstands : run.stage.standing? (.animation name) = some a.number := by
    simp [standing?, ha]
  unfold directAnimation
  split
  · exact Lands.view_bind (fade_obeys hs hstands)
  split
  · refine Lands.lift_bind (.of_sets (.refl hs)) fun placement => ?_
    refine Lands.lift_bind (.of_sets (.refl hs)) fun finish => Lands.view_bind ?_
    exact Lands.mono (tween_sets hs hstands True.intro) fun _ _ h => .of_sets h
  split
  · refine Lands.lift_bind (.of_sets (.refl hs)) fun facing => ?_
    exact change_obeys hs rfl rfl (run.stage.standing?_changeAnimation name fun _ => rfl)
  · exact signal_obeys hs _

theorem onAnimation_obeys (hs : run.stage.Orderly) :
    Lands (onAnimation c) run fun _ run' => run.stage.Obeys run'.stage := by
  unfold onAnimation
  dsimp only
  refine Lands.lift_bind (.of_sets (.refl hs)) fun fading => ?_
  split
  · refine Lands.view_bind ?_
    split
    · exact signal_obeys hs _
    · next sheet _ =>
      refine (stageAnimation_sets hs _ sheet _).then_bind (fun _ h => .of_sets h.1)
        fun number run' h => ?_
      split
      · refine Lands.view_bind ?_
        refine Lands.mono (tween_sets h.1.orderly (h.2 number rfl) True.intro) fun _ _ h' => ?_
        exact .of_sets (h.1.trans hs h')
      · exact Lands.pure (.of_sets h.1)
  · refine Lands.view_bind ?_
    cases ha : run.stage.animations.get? (c.target.getD "") with
    | none => exact signal_obeys hs _
    | some a => exact directAnimation_obeys hs ha

omit [Scalar α] in
theorem changeEmotion_sets (hs : run.stage.Orderly) (emotion : String) :
    Lands (changeEmotion c emotion) run fun _ run' => run.stage.Sets run'.stage := by
  refine Lands.view_bind ?_
  split
  · exact Lands.change (.refl hs)
  · split
    · refine Lands.change (.of_standing_eq hs rfl rfl ?_)
      exact run.stage.standing?_changeActor _ fun _ => rfl
    · exact Lands.change (.refl hs)

theorem onDialogue_obeys (hs : run.stage.Orderly) :
    Lands (onDialogue c) run fun _ run' => run.stage.Obeys run'.stage := by
  -- an emotion may have been changed when the rest of the command fails
  have hrest (run' : StageRun α) (h : run.stage.Sets run'.stage) (speaker : Option String) :
      Lands (do
        let narrating ← need "narrator" c.params.narrator
        change fun s => { s with narrating }
        let text ← need "text" c.params.text
        change fun s => { s with box := s.box.show speaker text } : StageAct α Unit) run'
        fun _ run'' => run.stage.Obeys run''.stage := by
    have hquiet {s' : Stage α} (hanimator : s'.animator = run'.stage.animator)
        (hnextNumber : s'.nextNumber = run'.stage.nextNumber)
        (hstanding : ∀ who, s'.standing? who = run'.stage.standing? who) : run.stage.Obeys s' :=
      .of_sets (h.trans hs (.of_standing_eq h.orderly hanimator hnextNumber hstanding))
    refine Lands.lift_bind (.of_sets h) fun narrating => Lands.change_bind ?_
    refine Lands.lift_bind (hquiet rfl rfl fun _ => rfl) fun text => ?_
    exact Lands.change (hquiet rfl rfl fun _ => rfl)
  refine Lands.lift_bind (.of_sets (.refl hs)) fun speaker => ?_
  split
  · exact (changeEmotion_sets hs _).then_bind (fun _ h => .of_sets h) fun _ run' h => hrest run' h _
  · exact hrest run (.refl hs) _

/-- Whatever the command, and whether it can be carried out or not. -/
theorem handle_obeys (hs : run.stage.Orderly) :
    Lands (handle c) run fun _ run' => run.stage.Obeys run'.stage := by
  unfold handle
  split
  · exact onActor_obeys hs
  · exact onAnimation_obeys hs
  · exact Lands.lift_bind (.of_sets (.refl hs)) fun id => change_obeys hs rfl rfl fun _ => rfl
  · refine Lands.lift_bind (.of_sets (.refl hs)) fun panel => ?_
    refine Lands.lift_bind (.of_sets (.refl hs)) fun sprite => ?_
    exact change_obeys hs rfl rfl fun _ => rfl
  · exact onDialogue_obeys hs
  · exact Lands.lift_bind (.of_sets (.refl hs)) fun text => change_obeys hs rfl rfl fun _ => rfl
  · exact Lands.lift_bind (.of_sets (.refl hs)) fun name => change_obeys hs rfl rfl fun _ => rfl

theorem update_step (hs : run.stage.Orderly) (dt : α) :
    Lands (update dt) run fun _ run' => run.stage.Step run'.stage ∧ run.stage.Ran run'.stage :=
  Lands.of_ends <| (update_ran hs.sound hs.mixes dt).mono fun _ _ h =>
    ⟨h.1.step hs h.2.2.1 h.2.2.2 h.2.1, h.1⟩

end StageAct

/-! ### The life of a stage -/

/-- What happens to a stage: a command is delivered, time passes, or the player presses. -/
inductive Deed (α : Type) where
  | command (c : Command)
  | time (dt : α)
  | press (awaiting : Bool)

/-- What is done on the stage. -/
def Deed.work [Scalar α] : Deed α → StageAct α Unit
  | .command c => StageAct.handle c
  | .time dt => StageAct.update dt
  | .press awaiting => StageAct.change fun s => (s.press awaiting).2

namespace Stage

variable [Scalar α] {s start : Stage α}

/-- The stage after some deeds. One that fails leaves what it had done. -/
def after (s : Stage α) (deeds : List (Deed α)) : Stage α :=
  deeds.foldl (fun s deed => (deed.work.outcome { stage := s }).2.stage) s

theorem after_append (s : Stage α) (deeds deeds' : List (Deed α)) :
    s.after (deeds ++ deeds') = (s.after deeds).after deeds' :=
  List.foldl_append

/-- A press is a matter of the box. -/
theorem exists_press_eq (s : Stage α) (awaiting : Bool) :
    ∃ box, (s.press awaiting).2 = { s with box } := by
  unfold press
  split
  · dsimp only
    split <;> exact ⟨_, rfl⟩
  · exact ⟨s.box, rfl⟩

theorem Orderly.obeys (hs : s.Orderly) (c : Command) : s.Obeys (s.after [.command c]) := by
  have h : Lands (StageAct.handle c) { stage := s } _ := StageAct.handle_obeys hs
  exact h

theorem Orderly.time (hs : s.Orderly) (dt : α) :
    s.Step (s.after [.time dt]) ∧ s.Ran (s.after [.time dt]) := by
  have h : Lands (StageAct.update dt) { stage := s } _ := StageAct.update_step hs dt
  exact h

theorem Orderly.step (hs : s.Orderly) (deed : Deed α) : s.Step (s.after [deed]) := by
  cases deed with
  | command c => exact (hs.obeys c).toStep
  | time dt => exact (hs.time dt).1
  | press awaiting =>
    obtain ⟨box, hbox⟩ := s.exists_press_eq awaiting
    have hquiet : s.Sets { s with box } := .of_standing_eq hs rfl rfl fun _ => rfl
    show s.Step (s.press awaiting).2
    exact hbox ▸ (Obeys.of_sets hquiet).toStep

/-- However a stage lives on, it stays in order. -/
theorem Orderly.after (hs : s.Orderly) (deeds : List (Deed α)) :
    (s.after deeds).Orderly ∧ s.Later (s.after deeds) := by
  induction deeds generalizing s with
  | nil => exact ⟨hs, .refl s⟩
  | cons deed rest ih =>
    have hstep := hs.step deed
    obtain ⟨horderly, hlater⟩ := ih hstep.orderly
    exact ⟨horderly, hstep.later.trans hlater⟩

omit [Scalar α] in
/-- On an empty stage nobody stands and nothing fades. -/
theorem orderly_empty (cast : Cast) (reveal : RevealParams α) (durations : EffectDurations α)
    (logCapacity : Nat) : (empty cast reveal durations logCapacity).Orderly where
  sound := ⟨List.nodup_nil, fun i hi => absurd hi List.not_mem_nil⟩
  mixes _ htw := absurd htw List.not_mem_nil
  standing_lt who m hm := by cases who <;> cases hm
  standing_inj who other m hm := by cases who <;> cases hm
  fades_lt i who n hfades := absurd hfades.running List.not_mem_nil
  fades_alpha i who n hfades := absurd hfades.running List.not_mem_nil
  fades_own i who n other hfades := absurd hfades.running List.not_mem_nil

/-- A fade-out in the life of a stage, from the deed that begins it to the deed that ends it. -/
structure FadeOut (start : Stage α) where
  before : List (Deed α)
  beginning : Deed α
  between : List (Deed α)
  ending : Deed α
  tween : Nat
  who : Leaving
  number : Nat
  new : (start.after before).animator.pool.size ≤ tween
  begins : (start.after (before ++ [beginning])).Fades tween who number
  lasts : (start.after (before ++ beginning :: between)).Fades tween who number
  ends : (start.after (before ++ beginning :: between ++ [ending])).animator.isDone tween

namespace FadeOut

/-- The stage right before the fade-out began. -/
def first (f : start.FadeOut) : Stage α := start.after f.before

/-- The stage right after the fade-out began. -/
def begun (f : start.FadeOut) : Stage α := start.after (f.before ++ [f.beginning])

/-- The stage right before the fade-out ended. -/
def last (f : start.FadeOut) : Stage α := start.after (f.before ++ f.beginning :: f.between)

/-- The stage right after the fade-out ended. -/
def ended (f : start.FadeOut) : Stage α :=
  start.after (f.before ++ f.beginning :: f.between ++ [f.ending])

variable (f : start.FadeOut)

theorem begun_eq : f.begun = f.first.after [f.beginning] := start.after_append _ _

theorem last_eq : f.last = f.begun.after f.between := by
  rw [last, begun, ← after_append, List.append_assoc]
  rfl

theorem ended_eq : f.ended = f.last.after [f.ending] := start.after_append _ _

variable {f}

theorem orderly_first (hstart : start.Orderly) : f.first.Orderly := (hstart.after _).1

/-- Who stands under the name before the fade-out ends does not after. -/
theorem takes (hstart : start.Orderly) {m : Nat} (hm : f.last.standing? f.who = some m) :
    f.ended.standing? f.who ≠ some m := by
  intro hended
  have horderly : f.last.Orderly := (hstart.after _).1
  have hlater : f.last.Later f.ended := f.ended_eq ▸ (horderly.step f.ending).later
  have hnew := hlater.ended f.tween f.who f.number f.lasts f.ends m hended
  exact absurd (horderly.standing_lt f.who m hm) (Nat.not_lt_of_le hnew)

/-- Who stands under the name before the fade-out ends is who fades, or was staged since that
    began. -/
theorem own_iff (hstart : start.Orderly) {m : Nat} (hm : f.last.standing? f.who = some m) :
    m = f.number ↔ m < f.begun.nextNumber := by
  have hfirst := f.orderly_first hstart
  have hstep : f.first.Step f.begun := f.begun_eq ▸ hfirst.step f.beginning
  have hlater : f.begun.Later f.last := f.last_eq ▸ (hstep.orderly.after f.between).2
  obtain ⟨hstands, hsub, -⟩ := hstep.begins f.tween f.who f.number f.new f.begins
  constructor
  · rintro rfl
    exact Nat.lt_of_lt_of_le (hfirst.standing_lt f.who _ hstands) hstep.later.nextNumber_le
  · intro hlt
    rcases hlater.stood f.who m hm with hold | hnew
    · exact Option.some.inj ((hsub m hold).symm.trans hstands)
    · exact absurd hlt (Nat.not_lt_of_le hnew)

/-- An actor's fade-out takes that actor, if no other fade-out of the name ran as it began. -/
theorem actor_own (hstart : start.Orderly) {name : String} (hwho : f.who = .actor name)
    (hsole : ∀ i n, ¬ f.first.Fades i f.who n) : f.last.standing? f.who = some f.number := by
  have hstep : f.first.Step f.begun := f.begun_eq ▸ (f.orderly_first hstart).step f.beginning
  have hlater : f.begun.Later f.last := f.last_eq ▸ (hstep.orderly.after f.between).2
  obtain ⟨-, -, hbegun⟩ := hstep.begins f.tween f.who f.number f.new f.begins
  obtain ⟨hstands, hone⟩ := hbegun hsole
  have hbegins := f.begins
  have hlasts := f.lasts
  rw [hwho] at hstands hone hbegins hlasts ⊢
  exact (hlater.sole f.tween name f.number hbegins hstands hone hlasts).1

/-- A fade-out that a command ends takes whom it fades. -/
theorem command_own (hstart : start.Orderly) {c : Command} (hending : f.ending = .command c) :
    f.last.standing? f.who = some f.number := by
  have horderly : f.last.Orderly := (hstart.after _).1
  have hended : f.ended = f.last.after [.command c] := hending ▸ f.ended_eq
  have hobeys : f.last.Obeys f.ended := hended ▸ horderly.obeys c
  exact hobeys.own f.tween f.who f.number f.lasts f.ends

/-- Time takes nobody off the stage but those under whose names fade-outs end. -/
theorem time_stays (hstart : start.Orderly) {dt : α} (hending : f.ending = .time dt)
    {other : Leaving} (hother : ∀ i n, f.last.Fades i other n → f.ended.animator.isDone i = false) :
    f.ended.standing? other = f.last.standing? other := by
  have horderly : f.last.Orderly := (hstart.after _).1
  have hended : f.ended = f.last.after [.time dt] := hending ▸ f.ended_eq
  have hran : f.last.Ran f.ended := hended ▸ (horderly.time dt).2
  exact hran.stays other hother

end FadeOut

end Stage

end VisualNovel

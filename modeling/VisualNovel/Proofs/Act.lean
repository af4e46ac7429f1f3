import VisualNovel.Act

/-!
What a computation with a state and failures does, in six forms. The `outcome` equations run it
from a known state. `Ends` says that it does not fail and what holds afterwards; `Lands` says what
holds afterwards whether it fails or not, and `EndsIff` says when it fails. `Keeps` speaks of all
states at once: whatever the computation does, an invariant survives it. `Agree` compares two runs.
-/

namespace VisualNovel.Act

variable {ε σ α β : Type}

/-! ### Running a computation -/

@[simp] theorem outcome_pure (x : α) (s : σ) : (pure x : Act ε σ α).outcome s = (.ok x, s) := rfl

@[simp] theorem outcome_throw (e : ε) (s : σ) :
    (throw e : Act ε σ α).outcome s = (.error e, s) := rfl

@[simp] theorem outcome_get (s : σ) : (get : Act ε σ σ).outcome s = (.ok s, s) := rfl

@[simp] theorem outcome_change (f : σ → σ) (s : σ) :
    (change f : Act ε σ Unit).outcome s = (.ok (), f s) := rfl

@[simp] theorem outcome_view (f : σ → β) (s : σ) :
    (view f : Act ε σ β).outcome s = (.ok (f s), s) := rfl

@[simp] theorem outcome_lift (r : Except ε α) (s : σ) :
    (liftM r : Act ε σ α).outcome s = (r, s) := by
  cases r <;> rfl

/-- The second part of a computation runs from the state that the first one leaves, unless that
    has failed. -/
theorem outcome_bind (a : Act ε σ α) (f : α → Act ε σ β) (s : σ) :
    (a >>= f).outcome s = match a.outcome s with
      | (.ok x, s') => (f x).outcome s'
      | (.error e, s') => (.error e, s') := by
  show (ExceptT.bind a f).run.run s = _
  unfold ExceptT.bind ExceptT.bindCont outcome
  simp only [ExceptT.run, ExceptT.mk, bind, StateT.bind, StateT.run]
  cases h : a s with
  | mk r s' => cases r <;> rfl

theorem outcome_bind_of_ok {a : Act ε σ α} {f : α → Act ε σ β} {s s' : σ} {x : α}
    (h : a.outcome s = (.ok x, s')) : (a >>= f).outcome s = (f x).outcome s' := by
  rw [outcome_bind, h]

theorem outcome_bind_of_error {a : Act ε σ α} {f : α → Act ε σ β} {s s' : σ} {e : ε}
    (h : a.outcome s = (.error e, s')) : (a >>= f).outcome s = (.error e, s') := by
  rw [outcome_bind, h]

/-- What runs without a failure has a result. -/
theorem exists_outcome_eq_ok {a : Act ε σ α} {s : σ} (h : (a.outcome s).1.isOk) :
    ∃ x, a.outcome s = (.ok x, (a.outcome s).2) := by
  cases houtcome : a.outcome s with
  | mk r s' =>
    rw [houtcome] at h
    cases r with
    | error e => cases h
    | ok x => exact ⟨x, rfl⟩

@[simp] theorem outcome_forM_nil (f : α → Act ε σ Unit) (s : σ) :
    (([] : List α).forM f).outcome s = (.ok (), s) := rfl

/-! ### Ending well -/

/-- From this state the computation does not fail, and its result and the state that it leaves
    are as `Q` says. -/
def Ends (a : Act ε σ α) (s : σ) (Q : α → σ → Prop) : Prop :=
  ∃ x s', a.outcome s = (.ok x, s') ∧ Q x s'

namespace Ends

variable {s : σ} {Q : β → σ → Prop}

protected theorem pure {x : β} (h : Q x s) : Ends (pure x : Act ε σ β) s Q := ⟨x, s, rfl, h⟩

protected theorem bind {a : Act ε σ α} {f : α → Act ε σ β}
    (h : Ends a s fun x s' => Ends (f x) s' Q) : Ends (a >>= f) s Q := by
  obtain ⟨x, s', houtcome, y, s'', houtcome', hQ⟩ := h
  exact ⟨y, s'', by rw [outcome_bind_of_ok houtcome, houtcome'], hQ⟩

theorem mono {a : Act ε σ β} {R : β → σ → Prop} (h : Ends a s R)
    (hQ : ∀ x s', R x s' → Q x s') : Ends a s Q := by
  obtain ⟨x, s', houtcome, hR⟩ := h
  exact ⟨x, s', houtcome, hQ x s' hR⟩

/-- What is known of the end in two ways holds together. -/
protected theorem and {a : Act ε σ β} {R : β → σ → Prop} (h : Ends a s Q) (h' : Ends a s R) :
    Ends a s fun x s' => Q x s' ∧ R x s' := by
  obtain ⟨x, s', houtcome, hQ⟩ := h
  obtain ⟨y, t, houtcome', hR⟩ := h'
  rw [houtcome] at houtcome'
  cases houtcome'
  exact ⟨x, s', houtcome, hQ, hR⟩

/-- One computation after another that ends well. -/
theorem then_bind {a : Act ε σ α} {f : α → Act ε σ β} {R : α → σ → Prop} (ha : Ends a s R)
    (hf : ∀ x s', R x s' → Ends (f x) s' Q) : Ends (a >>= f) s Q :=
  Ends.bind (ha.mono hf)

theorem get_bind {f : σ → Act ε σ β} (h : Ends (f s) s Q) : Ends (get >>= f) s Q :=
  Ends.bind ⟨s, s, rfl, h⟩

theorem view_bind {γ : Type} {f : σ → γ} {g : γ → Act ε σ β} (h : Ends (g (f s)) s Q) :
    Ends (Act.view f >>= g) s Q :=
  Ends.bind ⟨f s, s, rfl, h⟩

theorem change {f : σ → σ} {Q : Unit → σ → Prop} (h : Q () (f s)) :
    Ends (Act.change f : Act ε σ Unit) s Q :=
  ⟨(), f s, rfl, h⟩

theorem change_bind {f : σ → σ} {g : Unit → Act ε σ β} (h : Ends (g ()) (f s) Q) :
    Ends (Act.change f >>= g) s Q :=
  Ends.bind (Ends.change h)

protected theorem discard {a : Act ε σ α} {Q : Unit → σ → Prop} (h : Ends a s fun _ => Q ()) :
    Ends (discard a) s Q := by
  obtain ⟨x, s', houtcome, hQ⟩ := h
  refine ⟨(), s', ?_, hQ⟩
  show (a >>= fun _ => pure ()).outcome s = _
  rw [outcome_bind_of_ok houtcome]
  rfl

theorem lift_bind {x : α} {r : Except ε α} {f : α → Act ε σ β} (hr : r = .ok x)
    (h : Ends (f x) s Q) : Ends (liftM r >>= f) s Q := by
  subst hr
  exact Ends.bind ⟨x, s, rfl, h⟩

end Ends

/-! ### Landing in a state -/

/-- Whatever comes of the computation from this state, its result, if there is one, and the state
    that it leaves are as `Q` says. -/
def Lands (a : Act ε σ α) (s : σ) (Q : Option α → σ → Prop) : Prop :=
  Q (a.outcome s).1.toOption (a.outcome s).2

namespace Lands

variable {s : σ} {Q : Option β → σ → Prop}

protected theorem pure {x : β} (h : Q (some x) s) : Lands (pure x : Act ε σ β) s Q := h

protected theorem throw {e : ε} (h : Q none s) : Lands (throw e : Act ε σ β) s Q := h

theorem mono {a : Act ε σ β} {R : Option β → σ → Prop} (h : Lands a s R)
    (hQ : ∀ x s', R x s' → Q x s') : Lands a s Q :=
  hQ _ _ h

/-- What ends well lands where it ends. -/
theorem of_ends {a : Act ε σ β} (h : Ends a s fun x => Q (some x)) : Lands a s Q := by
  obtain ⟨x, s', houtcome, hQ⟩ := h
  rw [Lands, houtcome]
  exact hQ

/-- One computation after another; if the first one fails, the second does not run. -/
theorem then_bind {a : Act ε σ α} {f : α → Act ε σ β} {R : Option α → σ → Prop} (ha : Lands a s R)
    (hfail : ∀ s', R none s' → Q none s') (hf : ∀ x s', R (some x) s' → Lands (f x) s' Q) :
    Lands (a >>= f) s Q := by
  unfold Lands at ha ⊢
  rw [outcome_bind]
  match h : a.outcome s with
  | (.ok x, s') =>
    rw [h] at ha
    exact hf x s' ha
  | (.error e, s') =>
    rw [h] at ha
    exact hfail s' ha

/-- One computation that ends well, and another. -/
theorem bind_of_ends {a : Act ε σ α} {f : α → Act ε σ β} {R : α → σ → Prop} (ha : Ends a s R)
    (hf : ∀ x s', R x s' → Lands (f x) s' Q) : Lands (a >>= f) s Q := by
  obtain ⟨x, s', houtcome, hR⟩ := ha
  rw [Lands, outcome_bind_of_ok houtcome]
  exact hf x s' hR

theorem get_bind {f : σ → Act ε σ β} (h : Lands (f s) s Q) : Lands (get >>= f) s Q := h

theorem view_bind {γ : Type} {f : σ → γ} {g : γ → Act ε σ β} (h : Lands (g (f s)) s Q) :
    Lands (Act.view f >>= g) s Q := h

theorem change {f : σ → σ} {Q : Option Unit → σ → Prop} (h : Q (some ()) (f s)) :
    Lands (Act.change f : Act ε σ Unit) s Q := h

theorem change_bind {f : σ → σ} {g : Unit → Act ε σ β} (h : Lands (g ()) (f s) Q) :
    Lands (Act.change f >>= g) s Q := h

theorem lift_bind {r : Except ε α} {f : α → Act ε σ β} (hfail : Q none s)
    (hf : ∀ x, Lands (f x) s Q) : Lands (liftM r >>= f) s Q := by
  cases r with
  | ok x => exact hf x
  | error e => exact hfail

protected theorem discard {a : Act ε σ α} {Q : σ → Prop} (h : Lands a s fun _ => Q) :
    Lands (discard a) s fun _ => Q :=
  h.then_bind (fun _ hs' => hs') fun _ _ hs' => hs'

end Lands

/-! ### Keeping an invariant -/

/-- From every state of the invariant the computation ends in one, and what it fails with is
    allowed by `E`. -/
def Keeps (I : σ → Prop) (E : ε → Prop) (a : Act ε σ α) : Prop :=
  ∀ s, I s → I (a.outcome s).2 ∧ ∀ e, (a.outcome s).1 = .error e → E e

/-- A computation that ends well keeps an invariant on its way, too. -/
theorem Ends.and_keeps {a : Act ε σ β} {s : σ} {Q : β → σ → Prop} {I : σ → Prop} {E : ε → Prop}
    (h : Ends a s Q) (ha : Keeps I E a) (hs : I s) : Ends a s fun x s' => Q x s' ∧ I s' := by
  obtain ⟨x, s', houtcome, hQ⟩ := h
  refine ⟨x, s', houtcome, hQ, ?_⟩
  have hkept := (ha s hs).1
  rwa [houtcome] at hkept

namespace Keeps

variable {I : σ → Prop} {E : ε → Prop}

theorem lands {a : Act ε σ α} {s : σ} (h : Keeps I E a) (hs : I s) : Lands a s fun _ => I :=
  (h s hs).1

theorem of_lands {a : Act ε σ α} (h : ∀ s, I s → Lands a s fun _ => I) :
    Keeps I (fun _ => True) a :=
  fun s hs => ⟨h s hs, fun _ _ => trivial⟩

/-- What ends well from every state of an invariant in one keeps it. -/
theorem of_ends {a : Act ε σ β} (h : ∀ s, I s → Ends a s fun _ s' => I s') : Keeps I E a := by
  intro s hs
  obtain ⟨x, s', houtcome, hI⟩ := h s hs
  rw [houtcome]
  exact ⟨hI, fun _ he => by cases he⟩

protected theorem pure (x : α) : Keeps I E (pure x : Act ε σ α) :=
  fun _ hs => ⟨hs, fun _ h => by cases h⟩

protected theorem throw {e : ε} (he : E e) : Keeps I E (throw e : Act ε σ α) := by
  intro s hs
  refine ⟨hs, fun e' h => ?_⟩
  cases h
  exact he

protected theorem bind {a : Act ε σ α} {f : α → Act ε σ β} (ha : Keeps I E a)
    (hf : ∀ x, Keeps I E (f x)) : Keeps I E (a >>= f) := by
  intro s hs
  obtain ⟨hinv, hfail⟩ := ha s hs
  rw [outcome_bind]
  match h : a.outcome s with
  | (.ok x, s') =>
    rw [h] at hinv
    exact hf x s' hinv
  | (.error e, s') =>
    rw [h] at hinv hfail
    refine ⟨hinv, fun e' he' => ?_⟩
    cases he'
    exact hfail e rfl

/-- What is read off the state satisfies the invariant, too. -/
theorem get_bind {f : σ → Act ε σ β} (hf : ∀ s, I s → Keeps I E (f s)) :
    Keeps I E (get >>= f) :=
  fun s hs => hf s hs s hs

theorem view_bind {γ : Type} {f : σ → γ} {g : γ → Act ε σ β}
    (hg : ∀ s, I s → Keeps I E (g (f s))) : Keeps I E (Act.view f >>= g) :=
  fun s hs => hg s hs s hs

theorem lift_bind {r : Except ε α} {f : α → Act ε σ β} (hr : ∀ e, r = .error e → E e)
    (hf : ∀ x, Keeps I E (f x)) : Keeps I E (liftM r >>= f) := by
  cases r with
  | ok x => exact hf x
  | error e => exact Keeps.throw (hr e rfl)

protected theorem discard {a : Act ε σ α} (ha : Keeps I E a) : Keeps I E (discard a) :=
  Keeps.bind ha fun _ => Keeps.pure _

theorem change {f : σ → σ} (hf : ∀ s, I s → I (f s)) : Keeps I E (Act.change f : Act ε σ Unit) :=
  fun s hs => ⟨hf s hs, fun _ h => by cases h⟩

protected theorem forM {xs : List α} {f : α → Act ε σ Unit} (hf : ∀ x ∈ xs, Keeps I E (f x)) :
    Keeps I E (xs.forM f) := by
  induction xs with
  | nil => exact Keeps.pure ()
  | cons x xs ih =>
    refine Keeps.bind (hf x List.mem_cons_self) fun _ => ih fun y hy => ?_
    exact hf y (List.mem_cons_of_mem x hy)

end Keeps

/-! ### Two runs -/

/-- Two computations, each run from a state of its own, have equal results and leave related
    states. -/
def Agree (R : σ → σ → Prop) (a : Act ε σ α) (s : σ) (b : Act ε σ α) (t : σ) : Prop :=
  (a.outcome s).1 = (b.outcome t).1 ∧ R (a.outcome s).2 (b.outcome t).2

namespace Agree

variable {R : σ → σ → Prop} {s t : σ}

protected theorem pure {x y : α} (hxy : x = y) (h : R s t) :
    Agree R (pure x : Act ε σ α) s (pure y) t := by
  subst hxy
  exact ⟨rfl, h⟩

protected theorem throw {e : ε} (h : R s t) : Agree R (throw e : Act ε σ α) s (throw e) t :=
  ⟨rfl, h⟩

protected theorem bind {a b : Act ε σ α} {f g : α → Act ε σ β} (hab : Agree R a s b t)
    (hfg : ∀ x s' t', R s' t' → Agree R (f x) s' (g x) t') :
    Agree R (a >>= f) s (b >>= g) t := by
  obtain ⟨hresult, hstate⟩ := hab
  unfold Agree
  rw [outcome_bind, outcome_bind]
  match ha : a.outcome s, hb : b.outcome t with
  | (.ok x, s'), (.ok y, t') =>
    rw [ha, hb] at hresult hstate
    cases hresult
    exact hfg x s' t' hstate
  | (.error e, s'), (.error e', t') =>
    rw [ha, hb] at hresult hstate
    cases hresult
    exact ⟨rfl, hstate⟩
  | (.ok x, s'), (.error e, t') => simp [ha, hb] at hresult
  | (.error e, s'), (.ok y, t') => simp [ha, hb] at hresult

theorem get_bind {f g : σ → Act ε σ β} (h : Agree R (f s) s (g t) t) :
    Agree R (get >>= f) s (get >>= g) t := h

theorem change {f g : σ → σ} (h : R (f s) (g t)) :
    Agree R (Act.change f : Act ε σ Unit) s (Act.change g) t := ⟨rfl, h⟩

protected theorem forM {xs : List α} {f : α → Act ε σ Unit} (h : R s t)
    (hf : ∀ x ∈ xs, ∀ s t, R s t → Agree R (f x) s (f x) t) :
    Agree R (xs.forM f) s (xs.forM f) t := by
  induction xs generalizing s t with
  | nil => exact Agree.pure rfl h
  | cons x xs ih =>
    refine Agree.bind (hf x List.mem_cons_self s t h) fun _ s' t' h' => ?_
    exact ih h' fun y hy => hf y (List.mem_cons_of_mem x hy)

end Agree

/-- Two computations, each run from a state of its own, do not fail, have the same result, and leave
    states that together are as `Q` says. -/
def EndBoth (a : Act ε σ α) (s : σ) (b : Act ε σ α) (t : σ) (Q : α → σ → σ → Prop) : Prop :=
  ∃ x s' t', a.outcome s = (.ok x, s') ∧ b.outcome t = (.ok x, t') ∧ Q x s' t'

namespace EndBoth

variable {s t : σ} {Q : β → σ → σ → Prop}

protected theorem pure {x : β} (h : Q x s t) : EndBoth (pure x : Act ε σ β) s (pure x) t Q :=
  ⟨x, s, t, rfl, rfl, h⟩

protected theorem bind {a b : Act ε σ α} {f g : α → Act ε σ β}
    (h : EndBoth a s b t fun x s' t' => EndBoth (f x) s' (g x) t' Q) :
    EndBoth (a >>= f) s (b >>= g) t Q := by
  obtain ⟨x, s', t', ha, hb, y, s'', t'', hf, hg, hQ⟩ := h
  exact ⟨y, s'', t'', by rw [outcome_bind_of_ok ha, hf], by rw [outcome_bind_of_ok hb, hg], hQ⟩

theorem mono {a b : Act ε σ β} {R : β → σ → σ → Prop} (h : EndBoth a s b t R)
    (hQ : ∀ x s' t', R x s' t' → Q x s' t') : EndBoth a s b t Q := by
  obtain ⟨x, s', t', ha, hb, hR⟩ := h
  exact ⟨x, s', t', ha, hb, hQ x s' t' hR⟩

/-- One computation after another, on both sides. -/
theorem then_bind {a b : Act ε σ α} {f g : α → Act ε σ β} {R : α → σ → σ → Prop}
    (hab : EndBoth a s b t R) (hfg : ∀ x s' t', R x s' t' → EndBoth (f x) s' (g x) t' Q) :
    EndBoth (a >>= f) s (b >>= g) t Q :=
  EndBoth.bind (hab.mono hfg)

theorem get_bind {f g : σ → Act ε σ β} (h : EndBoth (f s) s (g t) t Q) :
    EndBoth (get >>= f) s (get >>= g) t Q := h

theorem view_bind {γ : Type} {f : σ → γ} {g h : γ → Act ε σ β}
    (hgh : EndBoth (g (f s)) s (h (f t)) t Q) :
    EndBoth (Act.view f >>= g) s (Act.view f >>= h) t Q := hgh

theorem change {f g : σ → σ} {Q : Unit → σ → σ → Prop} (h : Q () (f s) (g t)) :
    EndBoth (Act.change f : Act ε σ Unit) s (Act.change g) t Q :=
  ⟨(), f s, g t, rfl, rfl, h⟩

theorem change_bind {f g : σ → σ} {a b : Unit → Act ε σ β}
    (h : EndBoth (a ()) (f s) (b ()) (g t) Q) :
    EndBoth (Act.change f >>= a) s (Act.change g >>= b) t Q :=
  EndBoth.bind (EndBoth.change h)

protected theorem discard {a b : Act ε σ α} {Q : Unit → σ → σ → Prop}
    (h : EndBoth a s b t fun _ => Q ()) : EndBoth (discard a) s (discard b) t Q := by
  obtain ⟨x, s', t', ha, hb, hQ⟩ := h
  refine ⟨(), s', t', ?_, ?_, hQ⟩
  · show (a >>= fun _ => pure ()).outcome s = _
    rw [outcome_bind_of_ok ha]
    rfl
  · show (b >>= fun _ => pure ()).outcome t = _
    rw [outcome_bind_of_ok hb]
    rfl

theorem lift_bind {x : α} {r : Except ε α} {f g : α → Act ε σ β} (hr : r = .ok x)
    (h : EndBoth (f x) s (g x) t Q) : EndBoth (liftM r >>= f) s (liftM r >>= g) t Q := by
  subst hr
  exact EndBoth.bind ⟨x, s, t, rfl, rfl, h⟩

end EndBoth

/-! ### Ending well or failing -/

/-- From this state the computation ends, its result and the state that it leaves as `Q` says, if
    `P`, and it fails if not. -/
def EndsIff (P : Prop) (a : Act ε σ α) (s : σ) (Q : α → σ → Prop) : Prop :=
  (P → Ends a s Q) ∧ ((a.outcome s).1.isOk → P)

namespace EndsIff

variable {s : σ} {P P' : Prop} {Q : β → σ → Prop}

theorem of_ends {a : Act ε σ β} (h : Ends a s Q) : EndsIff True a s Q :=
  ⟨fun _ => h, fun _ => trivial⟩

theorem ends {a : Act ε σ β} (h : EndsIff P a s Q) (hP : P) : Ends a s Q := h.1 hP

theorem congr {a : Act ε σ β} (h : EndsIff P a s Q) (hP : P' ↔ P) : EndsIff P' a s Q :=
  ⟨fun hP' => h.1 (hP.1 hP'), fun hok => hP.2 (h.2 hok)⟩

theorem mono {a : Act ε σ β} {R : β → σ → Prop} (h : EndsIff P a s R)
    (hQ : ∀ x s', R x s' → Q x s') : EndsIff P a s Q :=
  ⟨fun hP => (h.1 hP).mono hQ, h.2⟩

theorem throw {e : ε} (hP : ¬ P) : EndsIff P (throw e : Act ε σ β) s Q :=
  ⟨fun h => absurd h hP, fun h => by cases h⟩

theorem isOk_iff {a : Act ε σ β} (h : EndsIff P a s Q) : (a.outcome s).1.isOk ↔ P := by
  refine ⟨h.2, fun hP => ?_⟩
  obtain ⟨x, s', houtcome, -⟩ := h.1 hP
  rw [houtcome]
  rfl

/-- One computation after another: both have to end. -/
protected theorem bind {a : Act ε σ α} {f : α → Act ε σ β} {R : α → σ → Prop}
    (ha : EndsIff P a s R) (hf : ∀ x s', R x s' → EndsIff P' (f x) s' Q) :
    EndsIff (P ∧ P') (a >>= f) s Q := by
  constructor
  · rintro ⟨hP, hP'⟩
    exact (ha.1 hP).then_bind fun x s' hR => (hf x s' hR).1 hP'
  · intro hok
    rw [outcome_bind] at hok
    have hfirst : (a.outcome s).1.isOk := by
      match h : a.outcome s with
      | (.ok x, s') => rfl
      | (.error e, s') =>
        rw [h] at hok
        cases hok
    obtain ⟨x, s', houtcome, hR⟩ := ha.1 (ha.2 hfirst)
    rw [houtcome] at hok
    exact ⟨ha.2 hfirst, (hf x s' hR).2 hok⟩

/-- A computation that ends, and then another one. -/
theorem bind_of_ends {a : Act ε σ α} {f : α → Act ε σ β} {R : α → σ → Prop} (ha : Ends a s R)
    (hf : ∀ x s', R x s' → EndsIff P (f x) s' Q) : EndsIff P (a >>= f) s Q :=
  ((of_ends ha).bind hf).congr ⟨fun h => ⟨trivial, h⟩, And.right⟩

/-- A computation, and then another one that ends. -/
theorem then_ends {a : Act ε σ α} {f : α → Act ε σ β} {R : α → σ → Prop} (ha : EndsIff P a s R)
    (hf : ∀ x s', R x s' → Ends (f x) s' Q) : EndsIff P (a >>= f) s Q :=
  (ha.bind fun x s' hR => of_ends (hf x s' hR)).congr ⟨fun h => ⟨h, trivial⟩, And.left⟩

/-- What goes on with a result that there may not be. -/
theorem lift_bind {r : Except ε α} {f : α → Act ε σ β} {P : α → Prop}
    (hf : ∀ x, r = .ok x → EndsIff (P x) (f x) s Q) :
    EndsIff (∃ x, r = .ok x ∧ P x) (liftM r >>= f) s Q := by
  cases r with
  | error e =>
    refine EndsIff.throw ?_
    rintro ⟨x, h, -⟩
    cases h
  | ok x =>
    refine (hf x rfl).congr ⟨?_, fun hP => ⟨x, rfl, hP⟩⟩
    rintro ⟨y, h, hP⟩
    cases h
    exact hP

theorem view_bind {γ : Type} {f : σ → γ} {g : γ → Act ε σ β} (h : EndsIff P (g (f s)) s Q) :
    EndsIff P (Act.view f >>= g) s Q := h

theorem get_bind {f : σ → Act ε σ β} (h : EndsIff P (f s) s Q) : EndsIff P (get >>= f) s Q := h

/-- A loop ends exactly if all its rounds do, as long as each of them leaves what the others
    need. -/
protected theorem forM {I : σ → Prop} {P : α → Prop} {xs : List α} {f : α → Act ε σ Unit}
    (hs : I s) (hf : ∀ x ∈ xs, ∀ s, I s → EndsIff (P x) (f x) s fun _ => I) :
    EndsIff (∀ x ∈ xs, P x) (xs.forM f) s fun _ => I := by
  induction xs generalizing s with
  | nil => exact (of_ends (Ends.pure hs)).congr (by simp)
  | cons x xs ih =>
    refine ((hf x List.mem_cons_self s hs).bind fun _ s' hs' => ?_).congr List.forall_mem_cons
    exact ih hs' fun y hy => hf y (List.mem_cons_of_mem x hy)

/-- A computation on a part of the state. -/
theorem zoom {τ : Type} {part : τ → σ} {put : σ → τ → τ} {a : Act ε σ β} {t : τ}
    {R : β → τ → Prop} (h : EndsIff P a (part t) fun x s' => R x (put s' t)) :
    EndsIff P (a.zoom part put) t R := by
  constructor
  · intro hP
    obtain ⟨x, s', houtcome, hR⟩ := h.1 hP
    refine ⟨x, put s' t, ?_, hR⟩
    show ((a.outcome (part t)).1, put (a.outcome (part t)).2 t) = _
    rw [houtcome]
  · exact h.2

end EndsIff

end VisualNovel.Act

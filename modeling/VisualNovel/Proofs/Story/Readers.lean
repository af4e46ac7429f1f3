import Mathlib.Data.List.Induction
import VisualNovel.Story.History

/-!
Readers of a transcript that grows while they read it. Any number of views are taken of it, any
number of walks go along the views, a step now and a step then, and parts are copied. What a reader
is told depends on nothing but what was recorded by then and, for a walk, on what that walk has given
already. Main statement: `readers_told_right`.
-/

namespace VisualNovel

/-- Everything that is held of one transcript. Views, walks and slices have numbers, in the order in
    which they were taken. -/
structure Readers where
  history : History := {}
  /-- How many views there are. They have nothing of their own but show the transcript. -/
  views : Nat := 0
  walks : List History.Iterator := []
  slices : List (List HistoryEntry) := []

deriving instance Repr, DecidableEq for Slice

namespace Readers

/-- What is asked of a transcript and its readers. -/
inductive Request where
  | record (e : HistoryEntry)
  | view
  /-- A walk begins along a view. -/
  | walk (view : Nat)
  | step (walk : Nat)
  | length (view : Nat)
  | get (view : Nat) (index : Int)
  | slice (view : Nat) (bounds : Slice)
  /-- A slice is looked at that was taken before. -/
  | reread (slice : Nat)
  deriving Repr, DecidableEq

inductive Answer where
  | done
  | entry (e : HistoryEntry)
  | ended
  | count (n : Nat)
  /-- The entry at an index, if there is one. -/
  | found (e : Option HistoryEntry)
  /-- What a slice selects; nothing for a step of zero. -/
  | selected (es : Option (List HistoryEntry))
  | entries (es : List HistoryEntry)
  /-- There is no view, walk or slice of the number. -/
  | unknown
  deriving Repr, DecidableEq

/-- A request and its answer. -/
abbrev Event := Request × Answer

/-- The answer to a request, and what it leaves. -/
def perform (r : Readers) : Request → Answer × Readers
  | .record e => (.done, { r with history := r.history.record e })
  | .view => (.done, { r with views := r.views + 1 })
  | .walk view =>
    if view < r.views then (.done, { r with walks := r.walks ++ [{}] }) else (.unknown, r)
  | .step walk =>
    match r.walks[walk]? with
    | some it =>
      match r.history.next it with
      | (some e, it) => (.entry e, { r with walks := r.walks.set walk it })
      | (none, it) => (.ended, { r with walks := r.walks.set walk it })
    | none => (.unknown, r)
  | .length view => (if view < r.views then .count r.history.length else .unknown, r)
  | .get view index => (if view < r.views then .found (r.history.get? index) else .unknown, r)
  | .slice view bounds =>
    if view < r.views then
      let es := r.history.slice? bounds
      (.selected es, { r with slices := r.slices ++ es.toList })
    else (.unknown, r)
  | .reread slice =>
    match r.slices[slice]? with
    | some es => (.entries es, r)
    | none => (.unknown, r)

/-- What comes of requests, and the answers to them. -/
def after (r : Readers) (requests : List Request) : Readers :=
  requests.foldl (fun r request => (r.perform request).2) r

def events (r : Readers) : List Request → List Event
  | [] => []
  | request :: rest => (request, (r.perform request).1) :: events (r.perform request).2 rest

/-! ### What the events say -/

def recordedBy : Event → Option HistoryEntry
  | (.record e, _) => some e
  | _ => none

/-- The entry that a walk gives. -/
def givenBy (walk : Nat) : Event → Option HistoryEntry
  | (.step w, .entry e) => if w = walk then some e else none
  | _ => none

def takenBy : Event → Option (List HistoryEntry)
  | (.slice _ _, .selected es) => es
  | _ => none

def Event.isView : Event → Bool
  | (.view, _) => true
  | _ => false

def Event.isBeginning : Event → Bool
  | (.walk _, .done) => true
  | _ => false

/-- All entries ever recorded, in order. -/
def recorded (events : List Event) : List HistoryEntry := events.filterMap recordedBy

/-- All entries that a walk has given, in order. -/
def given (events : List Event) (walk : Nat) : List HistoryEntry := events.filterMap (givenBy walk)

/-- All slices that were taken, each as it was then. -/
def taken (events : List Event) : List (List HistoryEntry) := events.filterMap takenBy

def viewed (events : List Event) : Nat := events.countP Event.isView

def begun (events : List Event) : Nat := events.countP Event.isBeginning

def HasEnded (events : List Event) (walk : Nat) : Prop := (.step walk, .ended) ∈ events

instance (events : List Event) (walk : Nat) : Decidable (HasEnded events walk) :=
  inferInstanceAs (Decidable (_ ∈ events))

/-- The entry at an index, which counts from the end if it is below zero. -/
def entryAt (es : List HistoryEntry) : Int → Option HistoryEntry
  | .ofNat i => es[i]?
  | .negSucc i => es.reverse[i]?

/-- The entries that a slice selects, if its step is not zero. -/
def select (es : List HistoryEntry) (bounds : Slice) : Option (List HistoryEntry) :=
  (bounds.positions? es.length).map fun places => places.filterMap fun i => es[i]?

/-- An answer is right after some events. A walk that has begun gives the first entry that it has not
    given yet, until it has given all there are; from then on it has ended. A new walk has given
    nothing. A view shows what was recorded, and a slice stays as it was when it was taken. -/
def IsRight (past : List Event) : Event → Prop
  | (.record _, answer) => answer = .done
  | (.view, answer) => answer = .done
  | (.walk view, .done) =>
    view < viewed past ∧ given past (begun past) = [] ∧ ¬ HasEnded past (begun past)
  | (.step walk, .entry e) =>
    walk < begun past ∧ ¬ HasEnded past walk ∧
      (recorded past)[(given past walk).length]? = some e
  | (.step walk, .ended) =>
    walk < begun past ∧ (HasEnded past walk ∨ given past walk = recorded past)
  | (.length view, .count n) => view < viewed past ∧ n = (recorded past).length
  | (.get view index, .found e) => view < viewed past ∧ e = entryAt (recorded past) index
  | (.slice view bounds, .selected es) => view < viewed past ∧ es = select (recorded past) bounds
  | (.reread slice, .entries es) => (taken past)[slice]? = some es
  | (.walk view, .unknown) | (.length view, .unknown) | (.get view _, .unknown)
  | (.slice view _, .unknown) => viewed past ≤ view
  | (.step walk, .unknown) => begun past ≤ walk
  | (.reread slice, .unknown) => (taken past).length ≤ slice
  | _ => False

end Readers

namespace History

theorem get?_eq_entryAt (h : History) (index : Int) :
    h.get? index = Readers.entryAt h.entries index := by
  unfold get?
  dsimp only
  cases index with
  | ofNat i =>
    have hsign : ¬ Int.ofNat i < 0 := by simp
    rw [if_neg hsign, if_neg hsign]
    rfl
  | negSucc i =>
    show _ = h.entries.reverse[i]?
    have hsign : Int.negSucc i < 0 := Int.negSucc_lt_zero i
    have hvalue := Int.negSucc_eq i
    rw [if_pos hsign]
    by_cases hi : i < h.length
    · rw [if_neg (by omega), List.getElem?_reverse (by rwa [length_entries]), length_entries]
      congr 1
      omega
    · rw [if_pos (by omega), List.getElem?_eq_none (by simpa using hi)]

theorem slice?_eq_select (h : History) (bounds : Slice) :
    h.slice? bounds = Readers.select h.entries bounds := by
  unfold slice? Readers.select
  rw [length_entries]

/-- A walk that has ended stays where it is. -/
theorem next_of_isEnded (h : History) {it : Iterator} (hended : it.isEnded = true) :
    h.next it = (none, it) := by
  unfold next
  rw [if_pos hended]

theorem next_of_getElem? (h : History) {it : Iterator} (hnot : it.isEnded = false)
    {e : HistoryEntry} (he : h.entries[it.given]? = some e) :
    h.next it = (some e, { it with given := it.given + 1 }) := by
  unfold next
  rw [if_neg (by simp [hnot]), he]

theorem next_of_length_le (h : History) {it : Iterator} (hnot : it.isEnded = false)
    (hall : h.entries.length ≤ it.given) :
    h.next it = (none, { it with isEnded := true }) := by
  unfold next
  rw [if_neg (by simp [hnot]), List.getElem?_eq_none hall]

end History

namespace Readers

variable {r : Readers} {past : List Event}

/-! ### One request -/

theorem after_concat (r : Readers) (requests : List Request) (request : Request) :
    r.after (requests ++ [request]) = ((r.after requests).perform request).2 := by
  simp [after]

theorem events_concat (r : Readers) (requests : List Request) (request : Request) :
    r.events (requests ++ [request]) =
      r.events requests ++ [(request, ((r.after requests).perform request).1)] := by
  induction requests generalizing r with
  | nil => rfl
  | cons first rest ih =>
    show _ :: events _ (rest ++ [request]) = _
    rw [ih]
    rfl

/-! ### One event more -/

@[simp] theorem recorded_concat (past : List Event) (event : Event) :
    recorded (past ++ [event]) = recorded past ++ (recordedBy event).toList := by
  unfold recorded
  rw [List.filterMap_append]
  cases h : recordedBy event <;> simp [h]

@[simp] theorem given_concat (past : List Event) (event : Event) (walk : Nat) :
    given (past ++ [event]) walk = given past walk ++ (givenBy walk event).toList := by
  unfold given
  rw [List.filterMap_append]
  cases h : givenBy walk event <;> simp [h]

@[simp] theorem taken_concat (past : List Event) (event : Event) :
    taken (past ++ [event]) = taken past ++ (takenBy event).toList := by
  unfold taken
  rw [List.filterMap_append]
  cases h : takenBy event <;> simp [h]

@[simp] theorem viewed_concat (past : List Event) (event : Event) :
    viewed (past ++ [event]) = viewed past + if event.isView then 1 else 0 := by
  unfold viewed
  rw [List.countP_append, List.countP_singleton]

@[simp] theorem begun_concat (past : List Event) (event : Event) :
    begun (past ++ [event]) = begun past + if event.isBeginning then 1 else 0 := by
  unfold begun
  rw [List.countP_append, List.countP_singleton]

@[simp] theorem hasEnded_concat (past : List Event) (event : Event) (walk : Nat) :
    HasEnded (past ++ [event]) walk ↔ HasEnded past walk ∨ (.step walk, .ended) = event := by
  simp [HasEnded]

/-! ### What is held reflects the events -/

/-- Everything held is as the events say. -/
structure Reflects (r : Readers) (past : List Event) : Prop where
  history : r.history.entries = recorded past
  views : r.views = viewed past
  begun : r.walks.length = begun past
  walks : ∀ walk it, r.walks[walk]? = some it →
    it.given = (given past walk).length ∧ (it.isEnded = true ↔ HasEnded past walk)
  /-- A walk has given the first entries, without a gap. -/
  inOrder : ∀ walk, given past walk <+: recorded past
  unbegun : ∀ walk, Readers.begun past ≤ walk → given past walk = [] ∧ ¬ HasEnded past walk
  slices : r.slices = taken past

/-- The event is no beginning and no step of a walk. -/
structure Event.IsAside (event : Event) : Prop where
  isBeginning : event.isBeginning = false
  givenBy : ∀ walk, Readers.givenBy walk event = none
  notEnded : ∀ walk, (.step walk, .ended) ≠ event

namespace Reflects

theorem viewed_le (h : r.Reflects past) {view : Nat} (hview : ¬ view < r.views) :
    viewed past ≤ view :=
  h.views ▸ Nat.le_of_not_lt hview

/-- What happens aside from the walks leaves them where they are. -/
theorem aside (h : r.Reflects past) {event : Event} (haside : event.IsAside) {r' : Readers}
    (hwalks : r'.walks = r.walks)
    (hhistory : r'.history.entries = r.history.entries ++ (recordedBy event).toList)
    (hviews : r'.views = r.views + if event.isView then 1 else 0)
    (hslices : r'.slices = r.slices ++ (takenBy event).toList) :
    r'.Reflects (past ++ [event]) where
  history := by rw [hhistory, h.history, recorded_concat]
  views := by rw [hviews, h.views, viewed_concat]
  begun := by simp [hwalks, h.begun, haside.isBeginning]
  walks walk it hit := by
    rw [hwalks] at hit
    simpa [haside.givenBy, haside.notEnded] using h.walks walk it hit
  inOrder walk := by
    simp only [given_concat, haside.givenBy, Option.toList_none, List.append_nil, recorded_concat]
    exact (h.inOrder walk).trans (List.prefix_append _ _)
  unbegun walk hwalk := by
    simp only [begun_concat, haside.isBeginning, Bool.false_eq_true, if_false, Nat.add_zero] at hwalk
    simpa [haside.givenBy, haside.notEnded] using h.unbegun walk hwalk
  slices := by rw [hslices, h.slices, taken_concat]

/-- Whatever is only looked at stays as it is. -/
theorem looked (h : r.Reflects past) {event : Event} (haside : event.IsAside)
    (hrecorded : recordedBy event = none) (hview : event.isView = false)
    (htaken : takenBy event = none) : r.Reflects (past ++ [event]) :=
  h.aside haside rfl (by simp [hrecorded]) (by simp [hview]) (by simp [htaken])

/-- A walk that begins has given nothing. -/
theorem beginning (h : r.Reflects past) (view : Nat) :
    Reflects { r with walks := r.walks ++ [{}] } (past ++ [(.walk view, .done)]) where
  history := by simpa [recordedBy] using h.history
  views := by simpa [Event.isView] using h.views
  begun := by simp [h.begun, Event.isBeginning]
  walks walk it hit := by
    simp only [given_concat, givenBy, Option.toList_none, List.append_nil, hasEnded_concat,
      Prod.mk.injEq, reduceCtorEq, false_and, or_false]
    rcases Nat.lt_or_ge walk r.walks.length with hold | hnew
    · rw [List.getElem?_append_left hold] at hit
      exact h.walks walk it hit
    · obtain ⟨hnone, hnot⟩ := h.unbegun walk (h.begun ▸ hnew)
      rw [List.getElem?_append_right hnew] at hit
      obtain rfl : it = {} := List.mem_singleton.1 (List.mem_of_getElem? hit)
      simp [hnone, hnot]
  inOrder walk := by simpa [givenBy, recordedBy] using h.inOrder walk
  unbegun walk hwalk := by
    simp only [begun_concat, Event.isBeginning, if_true] at hwalk
    simpa [givenBy] using h.unbegun walk (by omega)
  slices := by simpa [takenBy] using h.slices

/-- A walk takes a step, and nothing else happens. -/
theorem stepping (h : r.Reflects past) {walk : Nat} {answer : Answer} {it : History.Iterator}
    (hwalk : walk < r.walks.length)
    (hgiven : it.given = (given (past ++ [(.step walk, answer)]) walk).length)
    (hended : it.isEnded = true ↔ HasEnded (past ++ [(.step walk, answer)]) walk)
    (hinOrder : given (past ++ [(.step walk, answer)]) walk <+: recorded past) :
    Reflects { r with walks := r.walks.set walk it } (past ++ [(.step walk, answer)]) where
  history := by simpa [recordedBy] using h.history
  views := by simpa [Event.isView] using h.views
  begun := by simpa [Event.isBeginning] using h.begun
  walks other it' hit := by
    by_cases hsame : walk = other
    · subst hsame
      rw [List.getElem?_set_self hwalk] at hit
      cases hit
      exact ⟨hgiven, hended⟩
    · have hother : givenBy other (.step walk, answer) = none := by
        cases answer <;> simp [givenBy, hsame]
      rw [List.getElem?_set_ne hsame] at hit
      simpa [hother, Ne.symm hsame] using h.walks other it' hit
  inOrder other := by
    by_cases hsame : walk = other
    · subst hsame
      simpa [recordedBy] using hinOrder
    · have hother : givenBy other (.step walk, answer) = none := by
        cases answer <;> simp [givenBy, hsame]
      simpa [hother, recordedBy] using h.inOrder other
  unbegun other hother := by
    have hbegun : Readers.begun (past ++ [(.step walk, answer)]) = Readers.begun past := by
      simp [Event.isBeginning]
    rw [hbegun] at hother
    have hne : walk ≠ other := by
      rw [h.begun] at hwalk
      omega
    have hnone : givenBy other (.step walk, answer) = none := by
      cases answer <;> simp [givenBy, hne]
    simpa [hnone, hne.symm] using h.unbegun other hother
  slices := by simpa [takenBy] using h.slices

/-- The next step of a walk: it gives the entry behind those that it has given, or it ends. -/
theorem step (h : r.Reflects past) (walk : Nat) :
    IsRight past (.step walk, (r.perform (.step walk)).1) ∧
      (r.perform (.step walk)).2.Reflects (past ++ [(.step walk, (r.perform (.step walk)).1)]) := by
  unfold perform
  dsimp only
  cases hit : r.walks[walk]? with
  | none =>
    have hunknown : Readers.begun past ≤ walk := h.begun ▸ List.getElem?_eq_none_iff.1 hit
    exact ⟨hunknown, h.looked ⟨rfl, fun _ => rfl, by simp⟩ rfl rfl rfl⟩
  | some it =>
    obtain ⟨hgiven, hended⟩ := h.walks walk it hit
    obtain ⟨hwalk, -⟩ := List.getElem?_eq_some_iff.1 hit
    have hbegun : walk < Readers.begun past := h.begun ▸ hwalk
    dsimp only
    cases hflag : it.isEnded with
    | true =>
      have hpast := hended.1 hflag
      rw [r.history.next_of_isEnded hflag]
      refine ⟨⟨hbegun, .inl hpast⟩, h.stepping hwalk ?_ ?_ ?_⟩
      · simpa [givenBy] using hgiven
      · simp [hflag]
      · simpa [givenBy] using h.inOrder walk
    | false =>
      have hnot : ¬ HasEnded past walk := fun hpast => by simp [hended.2 hpast] at hflag
      cases he : r.history.entries[it.given]? with
      | some e =>
        rw [r.history.next_of_getElem? hflag he]
        rw [h.history, hgiven] at he
        refine ⟨⟨hbegun, hnot, he⟩, h.stepping hwalk ?_ ?_ ?_⟩
        · simp [givenBy, hgiven]
        · simp [hflag, hnot]
        · obtain ⟨rest, hrest⟩ := h.inOrder walk
          rw [← hrest, List.getElem?_append_right (Nat.le_refl _), Nat.sub_self] at he
          obtain ⟨rest', rfl⟩ : ∃ rest', rest = e :: rest' := by
            cases rest with
            | nil => cases he
            | cons first rest' =>
              cases he
              exact ⟨rest', rfl⟩
          exact ⟨rest', by simpa [givenBy] using hrest⟩
      | none =>
        have hall := List.getElem?_eq_none_iff.1 he
        rw [r.history.next_of_length_le hflag hall]
        rw [h.history, hgiven] at hall
        refine ⟨⟨hbegun, .inr ((h.inOrder walk).eq_of_length_le hall)⟩, h.stepping hwalk ?_ ?_ ?_⟩
        · simpa [givenBy] using hgiven
        · simp
        · simpa [givenBy] using h.inOrder walk

end Reflects

/-- Every request is answered right, and what is held still reflects the events. -/
theorem Reflects.perform (h : r.Reflects past) (request : Request) :
    IsRight past (request, (r.perform request).1) ∧
      (r.perform request).2.Reflects (past ++ [(request, (r.perform request).1)]) := by
  cases request with
  | record e =>
    exact ⟨rfl, h.aside ⟨rfl, fun _ => rfl, by simp⟩ rfl (History.entries_record _ _) rfl
      (List.append_nil _).symm⟩
  | view =>
    exact ⟨rfl, h.aside ⟨rfl, fun _ => rfl, by simp⟩ rfl (List.append_nil _).symm rfl
      (List.append_nil _).symm⟩
  | walk view =>
    unfold Readers.perform
    dsimp only
    by_cases hview : view < r.views
    · rw [if_pos hview]
      obtain ⟨hnone, hnot⟩ := h.unbegun _ (Nat.le_refl _)
      exact ⟨⟨h.views ▸ hview, hnone, hnot⟩, h.beginning view⟩
    · rw [if_neg hview]
      exact ⟨h.viewed_le hview, h.looked ⟨rfl, fun _ => rfl, by simp⟩ rfl rfl rfl⟩
  | step walk => exact h.step walk
  | length view =>
    unfold Readers.perform
    dsimp only
    by_cases hview : view < r.views
    · rw [if_pos hview]
      refine ⟨⟨h.views ▸ hview, ?_⟩, h.looked ⟨rfl, fun _ => rfl, by simp⟩ rfl rfl rfl⟩
      rw [← h.history, History.length_entries]
    · rw [if_neg hview]
      exact ⟨h.viewed_le hview, h.looked ⟨rfl, fun _ => rfl, by simp⟩ rfl rfl rfl⟩
  | get view index =>
    unfold Readers.perform
    dsimp only
    by_cases hview : view < r.views
    · rw [if_pos hview]
      refine ⟨⟨h.views ▸ hview, ?_⟩, h.looked ⟨rfl, fun _ => rfl, by simp⟩ rfl rfl rfl⟩
      rw [← h.history, History.get?_eq_entryAt]
    · rw [if_neg hview]
      exact ⟨h.viewed_le hview, h.looked ⟨rfl, fun _ => rfl, by simp⟩ rfl rfl rfl⟩
  | slice view bounds =>
    unfold Readers.perform
    dsimp only
    by_cases hview : view < r.views
    · rw [if_pos hview]
      refine ⟨⟨h.views ▸ hview, ?_⟩, h.aside ⟨rfl, fun _ => rfl, by simp⟩ rfl
        (List.append_nil _).symm rfl rfl⟩
      rw [← h.history, History.slice?_eq_select]
    · rw [if_neg hview]
      exact ⟨h.viewed_le hview, h.looked ⟨rfl, fun _ => rfl, by simp⟩ rfl rfl rfl⟩
  | reread slice =>
    unfold Readers.perform
    dsimp only
    rw [h.slices]
    cases hslice : (taken past)[slice]? with
    | some es => exact ⟨hslice, h.looked ⟨rfl, fun _ => rfl, by simp⟩ rfl rfl rfl⟩
    | none =>
      exact ⟨List.getElem?_eq_none_iff.1 hslice,
        h.looked ⟨rfl, fun _ => rfl, by simp⟩ rfl rfl rfl⟩

/-! ### All requests -/

/-- What is right after the events before it is so among all events, and one event more is, too. -/
theorem isRight_of_concat {events past later : List Event} {event last : Event}
    (hevents : ∀ past event later, events = past ++ event :: later → IsRight past event)
    (hlast : IsRight events last) (heq : events ++ [last] = past ++ event :: later) :
    IsRight past event := by
  rcases List.eq_nil_or_concat later with rfl | ⟨later, last', rfl⟩
  · obtain ⟨rfl, hone⟩ := List.append_inj' heq rfl
    cases hone
    exact hlast
  · rw [List.concat_eq_append, ← List.cons_append, ← List.append_assoc] at heq
    exact hevents past event later (List.append_inj' heq rfl).1

theorem reflects_events (requests : List Request) :
    (after {} requests).Reflects (events {} requests) ∧
      ∀ past event later, events {} requests = past ++ event :: later → IsRight past event := by
  induction requests using List.reverseRecOn with
  | nil =>
    refine ⟨⟨rfl, rfl, rfl, by simp [after], fun _ => List.prefix_rfl, ?_, rfl⟩, by simp [events]⟩
    exact fun walk _ => ⟨rfl, List.not_mem_nil⟩
  | append_singleton requests request ih =>
    obtain ⟨hreflects, hright⟩ := ih
    obtain ⟨hlast, hnext⟩ := hreflects.perform request
    rw [after_concat, events_concat]
    exact ⟨hnext, fun past event later => isRight_of_concat hright hlast⟩

theorem map_events (r : Readers) (requests : List Request) :
    (r.events requests).map (·.1) = requests := by
  induction requests generalizing r with
  | nil => rfl
  | cons request rest ih => simp [events, ih]

/-- However entries are recorded and readers of any number read in between, each request is answered,
    and answered right. The entries that a walk gives are the first ones ever recorded, in their
    order. It ends only when it has given all that were recorded by then, and then it has ended for
    good, but a new walk has the first entry before it again. Views show at any time just what was
    recorded, and slices what they did when they were taken. -/
theorem readers_told_right (requests : List Request) :
    let events := ({} : Readers).events requests
    events.map (·.1) = requests ∧
      (∀ (walk i : Nat) (e : HistoryEntry),
        (given events walk)[i]? = some e → (recorded events)[i]? = some e) ∧
      ∀ past event later, events = past ++ event :: later → IsRight past event := by
  intro events
  obtain ⟨hreflects, hright⟩ := reflects_events requests
  refine ⟨map_events {} requests, fun walk i e he => ?_, hright⟩
  obtain ⟨rest, hrest⟩ := hreflects.inOrder walk
  rw [← hrest, List.getElem?_append_left (List.getElem?_eq_some_iff.1 he).1]
  exact he

/-- A walk ends after one entry. The entry that is recorded then is given to a new walk along the
    same view only, and it is not in the slice that was taken before. -/
theorem readers_told_right_late_entry :
    let first : HistoryEntry := ⟨none, "It rains.", "info: \"It rains.\""⟩
    let second : HistoryEntry := ⟨some "Nayu", "Hello", "Nayu: \"Hello\""⟩
    let events := ({} : Readers).events [.view, .record first, .walk 0, .step 0, .slice 0 {},
      .step 0, .record second, .step 0, .walk 0, .step 1, .step 1, .reread 0]
    given events 0 = [first] ∧ HasEnded events 0 ∧ given events 1 = [first, second] ∧
      (recorded events)[1]? = some second ∧ (taken events)[0]? = some [first] := by
  intro first second events
  obtain ⟨-, hgiven, hright⟩ := readers_told_right [.view, .record first, .walk 0, .step 0,
    .slice 0 {}, .step 0, .record second, .step 0, .walk 0, .step 1, .step 1, .reread 0]
  have hreread : IsRight (events.take 11) (.reread 0, .entries [first]) :=
    hright _ _ [] (by decide +kernel)
  exact ⟨by decide +kernel, by decide +kernel, by decide +kernel,
    hgiven 1 1 second (by decide +kernel), hreread⟩

end Readers

end VisualNovel

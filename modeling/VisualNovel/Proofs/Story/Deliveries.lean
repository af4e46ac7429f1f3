import Mathlib.Data.List.Basic
import VisualNovel.Proofs.Act
import VisualNovel.Story.Switchboard

/-!
What becomes of the commands that are published on a bus, however handlers publish, drain and
register while they are handed one. Nothing is lost, nothing is doubled, and nothing comes out of
order: a command goes to the handlers that its subsystem had when it was published, or it waits for
the next drain.
-/

namespace VisualNovel

/-- A handler comes behind those that its subsystem has already. -/
theorem Bus.recipients_register {η : Type} (b : Bus η) (t : Subsystem) (handler : η)
    (s : Subsystem) : (b.register t handler).recipients s =
      b.recipients s ++ if t = s then [handler] else [] := by
  unfold register recipients
  rw [List.filterMap_append]
  by_cases h : t = s
  · simp [h]
  · simp [h]

namespace Switchboard

/-! ### What the journal says -/

/-- What a handler is handed. -/
structure Handing where
  registration : Nat
  handler : String
  command : Command

/-- The place of a handler's registration, and the handler's name. -/
def Handler.entry (handler : Handler) : Nat × String := (handler.registration, handler.name)

/-- What it is when a handler is handed a command. -/
def Handler.handing (handler : Handler) (c : Command) : Handing :=
  ⟨handler.registration, handler.name, c⟩

/-- The handlers that a subsystem has by now, each with the place of its registration. -/
def registrations (events : List Event) (s : Subsystem) : List (Nat × String) :=
  events.zipIdx.filterMap fun
    | (.registered name t, place) => if t = s then some (place, name) else none
    | _ => none

/-- What has been handed out of a publication, in order. -/
def handings (events : List Event) (publication : Nat) : List Handing :=
  events.filterMap fun
    | .handed place registration name c =>
      if place = publication then some ⟨registration, name, c⟩ else none
    | _ => none

/-- What there is to be handed out of the event at a place: a published command, to each handler
    that its subsystem had by then, in the order of registration; nothing otherwise. -/
def due (events : List Event) (place : Nat) : List Handing :=
  match events[place]? with
  | some (.published c) =>
    (registrations (events.take place) c.subsystem).map fun (registration, name) =>
      ⟨registration, name, c⟩
  | _ => []

/-- The command that was published at a place while its subsystem had no handler. -/
def stranded? (events : List Event) (place : Nat) : Option Command :=
  match events[place]? with
  | some (.published c) =>
    if registrations (events.take place) c.subsystem = [] then some c else none
  | _ => none

def Event.isDrain : Event → Bool
  | .drained _ => true
  | _ => false

/-- The commands that were published without a handler and that have not been drained since, in the
    order of publication. -/
def waiting (events : List Event) : List Command :=
  (List.range events.length).filterMap fun place =>
    if (events.drop (place + 1)).any Event.isDrain then none else stranded? events place

/-! ### One event more -/

variable {events : List Event}

theorem registrations_append (events : List Event) (e : Event) (s : Subsystem) :
    registrations (events ++ [e]) s = registrations events s ++
      match e with
      | .registered name t => if t = s then [(events.length, name)] else []
      | _ => [] := by
  unfold registrations
  rw [List.zipIdx_append, List.filterMap_append]
  congr 1
  cases e with
  | registered name t =>
    by_cases h : t = s
    · simp [h]
    · simp [h]
  | _ => rfl

theorem handings_append (events more : List Event) (publication : Nat) :
    handings (events ++ more) publication =
      handings events publication ++ handings more publication :=
  List.filterMap_append

theorem due_of_length_le {place : Nat} (h : events.length ≤ place) : due events place = [] := by
  unfold due
  rw [List.getElem?_eq_none h]

theorem due_append_of_lt {place : Nat} (h : events.length < place) (e : Event) :
    due (events ++ [e]) place = [] := by
  apply due_of_length_le
  rw [List.length_append, List.length_singleton]
  exact h

/-- What is due does not depend on what happens later. -/
theorem due_of_prefix {events' : List Event} (h : events <+: events') {place : Nat}
    (hplace : place < events.length) : due events' place = due events place := by
  obtain ⟨more, rfl⟩ := h
  unfold due
  rw [List.getElem?_append_left hplace, List.take_append_of_le_length (Nat.le_of_lt hplace)]

theorem stranded?_append {place : Nat} (h : place < events.length) (more : List Event) :
    stranded? (events ++ more) place = stranded? events place := by
  unfold stranded?
  rw [List.getElem?_append_left h, List.take_append_of_le_length (Nat.le_of_lt h)]

/-- Nothing waits after a drain. -/
theorem waiting_append_drained (events : List Event) (commands : List Command) :
    waiting (events ++ [.drained commands]) = [] := by
  refine List.filterMap_eq_nil_iff.2 fun place hplace => ?_
  rw [List.length_append, List.length_singleton, List.mem_range] at hplace
  rcases Nat.lt_succ_iff_lt_or_eq.1 hplace with hlt | rfl
  · rw [List.drop_append_of_le_length hlt, List.any_append]
    simp [Event.isDrain]
  · simp [stranded?]

/-- Any other event leaves waiting what waits already. -/
theorem waiting_append {e : Event} (he : e.isDrain = false) :
    waiting (events ++ [e]) =
      waiting events ++ (stranded? (events ++ [e]) events.length).toList := by
  unfold waiting
  rw [List.length_append, List.length_singleton, List.range_succ, List.filterMap_append]
  congr 1
  · refine List.filterMap_congr fun place hplace => ?_
    have hlt := List.mem_range.1 hplace
    rw [List.drop_append_of_le_length hlt, List.any_append, stranded?_append hlt]
    simp [he]
  · have hlast : (events ++ [e]).drop (events.length + 1) = [] := List.drop_eq_nil_of_le (by simp)
    cases h : stranded? (events ++ [e]) events.length <;> simp [hlast, h]

theorem waiting_append_published (events : List Event) (c : Command) :
    waiting (events ++ [.published c]) =
      waiting events ++ if registrations events c.subsystem = [] then [c] else [] := by
  rw [waiting_append rfl]
  simp only [stranded?, List.getElem?_concat_length, List.take_left']
  split <;> rfl

/-- An event that leaves alone who is registered and what waits. -/
def Event.Aside : Event → Prop
  | .handed .. | .completed .. | .unresolved .. => True
  | _ => False

theorem Event.Aside.registrations_append {e : Event} (h : e.Aside) (events : List Event)
    (s : Subsystem) : registrations (events ++ [e]) s = registrations events s := by
  rw [Switchboard.registrations_append]
  cases e with
  | registered | published | drained => cases h
  | _ => exact List.append_nil _

theorem Event.Aside.waiting_append {e : Event} (h : e.Aside) (events : List Event) :
    waiting (events ++ [e]) = waiting events := by
  cases e with
  | registered | published | drained => cases h
  | _ =>
    rw [Switchboard.waiting_append rfl]
    simp [stranded?]

theorem due_append_published (events : List Event) (c : Command) :
    due (events ++ [.published c]) events.length =
      (registrations events c.subsystem).map fun (registration, name) =>
        ⟨registration, name, c⟩ := by
  simp [due]

theorem Event.Aside.due_append {e : Event} (h : e.Aside) (events : List Event) (place : Nat) :
    due (events ++ [e]) place = due events place := by
  rcases Nat.lt_trichotomy place events.length with hlt | rfl | hgt
  · exact due_of_prefix (List.prefix_append _ _) hlt
  · rw [due_of_length_le (Nat.le_refl _)]
    cases e with
    | registered | published | drained => cases h
    | _ => simp [due]
  · rw [due_of_length_le (Nat.le_of_lt hgt), due_append_of_lt hgt]

/-! ### Boards -/

namespace Board

/-- A board whose bus is as its journal says. -/
structure InOrder (b : Board) : Prop where
  recipients : ∀ s, (b.bus.recipients s).map Handler.entry = registrations b.events s
  outbox : b.bus.outbox = waiting b.events
  drained : ∀ place commands, b.events[place]? = some (.drained commands) →
    commands = waiting (b.events.take place)
  published : ∀ place, b.events.length ≤ place → handings b.events place = []

@[simp] theorem events_note (b : Board) (e : Event) : (b.note e).events = b.events ++ [e] :=
  b.journal.toList_push e

theorem inOrder_empty : ({} : Board).InOrder where
  recipients _ := rfl
  outbox := rfl
  drained := by simp [events]
  published _ _ := rfl

/-- A board stays in order if its bus follows the event that is noted. -/
theorem InOrder.note_with {b : Board} (h : b.InOrder) {e : Event} {bus : Bus Handler}
    (hrecipients : ∀ s, (bus.recipients s).map Handler.entry = registrations (b.events ++ [e]) s)
    (houtbox : bus.outbox = waiting (b.events ++ [e]))
    (hdrained : ∀ commands, e = .drained commands → commands = waiting b.events)
    (hpublished : ∀ place, b.events.length < place → handings [e] place = []) :
    InOrder { b.note e with bus } where
  recipients s := (hrecipients s).trans (congrArg (registrations · s) (b.events_note e).symm)
  outbox := houtbox.trans (congrArg waiting (b.events_note e).symm)
  drained place commands hplace := by
    have hevents : ({ b.note e with bus } : Board).events = b.events ++ [e] := b.events_note e
    rw [hevents] at hplace ⊢
    rcases Nat.lt_or_ge place b.events.length with hlt | hge
    · rw [List.take_append_of_le_length (Nat.le_of_lt hlt)]
      rw [List.getElem?_append_left hlt] at hplace
      exact h.drained place commands hplace
    · obtain ⟨hsize, -⟩ := List.getElem?_eq_some_iff.1 hplace
      obtain rfl : place = b.events.length := by
        rw [List.length_append, List.length_singleton] at hsize
        omega
      rw [List.getElem?_concat_length] at hplace
      rw [List.take_left']
      · exact hdrained commands (Option.some_inj.1 hplace)
      · rfl
  published place hplace := by
    have hevents : ({ b.note e with bus } : Board).events = b.events ++ [e] := b.events_note e
    rw [hevents, List.length_append, List.length_singleton] at hplace
    rw [hevents, handings_append, h.published place (by omega), hpublished place (by omega)]
    rfl

/-- What a computation on a board in order leaves: a board in order, with a longer journal, in which
    nothing more is handed out of what was published before, and all that is due of what was
    published since. -/
structure Proceeds (b b' : Board) : Prop where
  inOrder : b'.InOrder
  grows : b.events <+: b'.events
  old : ∀ place < b.events.length, handings b'.events place = handings b.events place
  new : ∀ place, b.events.length ≤ place → handings b'.events place = due b'.events place

theorem InOrder.proceeds {b : Board} (h : b.InOrder) : b.Proceeds b where
  inOrder := h
  grows := List.prefix_rfl
  old _ _ := rfl
  new place hplace := by rw [h.published place hplace, due_of_length_le hplace]

theorem Proceeds.trans {b b' b'' : Board} (h : b.Proceeds b') (h' : b'.Proceeds b'') :
    b.Proceeds b'' where
  inOrder := h'.inOrder
  grows := h.grows.trans h'.grows
  old place hplace :=
    (h'.old place (Nat.lt_of_lt_of_le hplace h.grows.length_le)).trans (h.old place hplace)
  new place hplace := by
    rcases Nat.lt_or_ge place b'.events.length with hlt | hge
    · rw [h'.old place hlt, h.new place hplace, due_of_prefix h'.grows hlt]
    · exact h'.new place hge

/-- An event aside changes nothing but the journal, as long as nothing is handed out by it. -/
theorem InOrder.note {b : Board} (h : b.InOrder) {e : Event} (he : e.Aside)
    (hpublished : ∀ place, b.events.length < place → handings [e] place = []) :
    (b.note e).InOrder :=
  h.note_with (fun s => (h.recipients s).trans (he.registrations_append b.events s).symm)
    (h.outbox.trans (he.waiting_append b.events).symm) (fun commands hdrain => by
      subst hdrain
      cases he) hpublished

/-- One event is noted while the bus follows it. -/
theorem InOrder.proceeds_note {b : Board} (h : b.InOrder) {e : Event} {bus : Bus Handler}
    (hnext : InOrder { b.note e with bus }) (hhanded : ∀ place, handings [e] place = [])
    (hdue : due (b.events ++ [e]) b.events.length = []) : b.Proceeds { b.note e with bus } := by
  have hevents : ({ b.note e with bus } : Board).events = b.events ++ [e] := b.events_note e
  refine ⟨hnext, hevents ▸ List.prefix_append _ _, fun place hplace => ?_, fun place hplace => ?_⟩
  · rw [hevents, handings_append, hhanded, List.append_nil]
  · rw [hevents, handings_append, hhanded, h.published place hplace]
    rcases Nat.lt_or_eq_of_le hplace with hlt | rfl
    · rw [due_append_of_lt hlt]
      rfl
    · rw [hdue]
      rfl

/-- A handler is registered. -/
theorem InOrder.proceeds_register {b : Board} (hb : b.InOrder) (name : String) (t : Subsystem)
    (respond : Trail Event → Command → Reaction) :
    b.Proceeds { b.note (.registered name t) with
      bus := b.bus.register t ⟨b.events.length, name, respond⟩ } := by
  refine hb.proceeds_note (hb.note_with (fun s => ?_) ?_ (fun _ hdrain => by cases hdrain)
    fun _ _ => rfl) (fun _ => rfl) (by simp [due])
  · rw [Bus.recipients_register, List.map_append, hb.recipients, registrations_append]
    by_cases h : t = s
    · simp [h, Handler.entry]
    · simp [h]
  · have hnone : stranded? (b.events ++ [.registered name t]) b.events.length = none := by
      simp [stranded?]
    rw [waiting_append rfl, hnone]
    exact hb.outbox.trans (List.append_nil _).symm

/-- A command that is published without a handler waits. -/
theorem InOrder.proceeds_postpone {b : Board} (hb : b.InOrder) {c : Command}
    (hnone : registrations b.events c.subsystem = []) :
    b.Proceeds { b.note (.published c) with bus := b.bus.postpone c } := by
  refine hb.proceeds_note (hb.note_with (fun s => ?_) ?_ (fun _ hdrain => by cases hdrain)
    fun _ _ => rfl) (fun _ => rfl) ?_
  · rw [registrations_append, List.append_nil]
    exact hb.recipients s
  · rw [Bus.outbox_postpone, hb.outbox, waiting_append_published, if_pos hnone]
  · rw [due_append_published, hnone]
    rfl

/-- The outbox is drained. -/
theorem InOrder.proceeds_drain {b : Board} (hb : b.InOrder) :
    b.Proceeds { b.note (.drained b.bus.drain.1) with bus := b.bus.drain.2 } := by
  refine hb.proceeds_note (hb.note_with (fun s => ?_) ?_ (fun commands hdrain => ?_)
    fun _ _ => rfl) (fun _ => rfl) (by simp [due])
  · rw [registrations_append, List.append_nil]
    exact hb.recipients s
  · rw [waiting_append_drained]
    rfl
  · cases hdrain
    exact hb.outbox

/-- Listeners are no part of what is handed out. -/
theorem InOrder.proceeds_listen {b : Board} (hb : b.InOrder) (completed unresolved : List String) :
    b.Proceeds { b with completedListeners := completed, unresolvedListeners := unresolved } where
  inOrder := ⟨hb.recipients, hb.outbox, hb.drained, hb.published⟩
  grows := List.prefix_rfl
  old _ _ := rfl
  new := hb.proceeds.new

/-- A board in the middle of a publication: some of what is due has been handed out. -/
structure Midway (b₀ : Board) (c : Command) (given : List Handing) (b : Board) : Prop where
  inOrder : b.InOrder
  grows : b₀.events ++ [.published c] <+: b.events
  old : ∀ place < b₀.events.length, handings b.events place = handings b₀.events place
  current : handings b.events b₀.events.length = given
  new : ∀ place, b₀.events.length < place → handings b.events place = due b.events place

variable {b₀ b b' : Board} {c : Command} {given : List Handing}

/-- A publication to some handlers begins. -/
theorem InOrder.midway (h : b₀.InOrder) (hsome : registrations b₀.events c.subsystem ≠ []) :
    Midway b₀ c [] (b₀.note (.published c)) where
  inOrder := h.note_with
    (fun s => by rw [h.recipients, registrations_append, List.append_nil])
    (by rw [h.outbox, waiting_append_published, if_neg hsome, List.append_nil])
    (fun _ hdrain => by cases hdrain) (fun _ _ => rfl)
  grows := b₀.events_note (.published c) ▸ List.prefix_rfl
  old place _ := by
    rw [events_note, handings_append]
    exact List.append_nil _
  current := by
    rw [events_note, handings_append, h.published _ (Nat.le_refl _)]
    rfl
  new place hplace := by
    rw [events_note, handings_append, h.published _ (Nat.le_of_lt hplace),
      due_append_of_lt hplace]
    rfl

theorem Midway.length_lt (h : Midway b₀ c given b) : b₀.events.length < b.events.length := by
  have hgrows := h.grows.length_le
  rw [List.length_append, List.length_singleton] at hgrows
  exact hgrows

/-- One more handler is handed the command. -/
theorem Midway.hand (h : Midway b₀ c given b) (handler : Handler) :
    Midway b₀ c (given ++ [handler.handing c])
      (b.note (.handed b₀.events.length handler.registration handler.name c)) := by
  have haside : (Event.handed b₀.events.length handler.registration handler.name c).Aside :=
    True.intro
  have hother (place : Nat) (hne : b₀.events.length ≠ place) :
      handings [.handed b₀.events.length handler.registration handler.name c] place = [] := by
    simp [handings, hne]
  refine ⟨h.inOrder.note haside fun place hplace => ?_, ?_, fun place hplace => ?_, ?_,
    fun place hplace => ?_⟩
  · exact hother place (Nat.ne_of_lt (Nat.lt_trans h.length_lt hplace))
  · rw [events_note]
    exact h.grows.trans (List.prefix_append _ _)
  · rw [events_note, handings_append, h.old place hplace, hother place (Nat.ne_of_gt hplace),
      List.append_nil]
  · rw [events_note, handings_append, h.current]
    simp [handings, Handler.handing]
  · rw [events_note, handings_append, h.new place hplace, hother place (Nat.ne_of_lt hplace),
      List.append_nil, haside.due_append]

/-- Whatever happens on the way, the publication stays where it is. -/
theorem Midway.proceed (h : Midway b₀ c given b) (h' : b.Proceeds b') : Midway b₀ c given b' where
  inOrder := h'.inOrder
  grows := h.grows.trans h'.grows
  old place hplace := (h'.old place (Nat.lt_trans hplace h.length_lt)).trans (h.old place hplace)
  current := (h'.old _ h.length_lt).trans h.current
  new place hplace := by
    rcases Nat.lt_or_ge place b.events.length with hlt | hge
    · rw [h'.old place hlt, h.new place hplace, due_of_prefix h'.grows hlt]
    · exact h'.new place hge

/-- The publication is over when all that is due has been handed out. -/
theorem Midway.proceeds (h : Midway b₀ c given b)
    (hall : given = due (b₀.events ++ [.published c]) b₀.events.length) : b₀.Proceeds b where
  inOrder := h.inOrder
  grows := (List.prefix_append _ _).trans h.grows
  old := h.old
  new place hplace := by
    rcases Nat.lt_or_eq_of_le hplace with hlt | rfl
    · exact h.new place hlt
    · rw [h.current, hall, due_of_prefix h.grows (by simp)]

end Board

/-! ### Operations -/

open Act

/-- From a board in order, what is computed without a failure proceeds. -/
def Proceeding {α : Type} (a : Playing α) : Prop :=
  ∀ b : Board, b.InOrder → a.Lands b fun x b' => x.isSome → b.Proceeds b'

section Proceeding

variable {α β : Type}

theorem Proceeding.pure (x : α) : Proceeding (pure x : Playing α) :=
  fun _ hb => Lands.pure fun _ => hb.proceeds

theorem Proceeding.bind {a : Playing α} {f : α → Playing β} (ha : Proceeding a)
    (hf : ∀ x, Proceeding (f x)) : Proceeding (a >>= f) := by
  intro b hb
  refine (ha b hb).then_bind (fun _ _ hnone => by cases hnone) fun x b' hb' => ?_
  have hfirst := hb' rfl
  exact (hf x b' hfirst.inOrder).mono fun _ _ hrest hsome => hfirst.trans (hrest hsome)

theorem Proceeding.get_bind {f : Board → Playing β} (hf : ∀ b, Proceeding (f b)) :
    Proceeding (get >>= f) :=
  fun b hb => Lands.get_bind (hf b b hb)

theorem Proceeding.discard {a : Playing α} (ha : Proceeding a) : Proceeding (discard a) :=
  ha.bind fun _ => .pure _

theorem Proceeding.forM {xs : List β} {f : β → Playing Unit} (hf : ∀ x, Proceeding (f x)) :
    Proceeding (xs.forM f) := by
  induction xs with
  | nil => exact .pure ()
  | cons x rest ih => exact (hf x).bind fun _ => ih

/-- A reaction proceeds if each of its operations does. -/
theorem react_proceeding {perform : Op → Playing (Option (List Command))}
    (hperform : ∀ op, Proceeding (perform op)) (r : Reaction) : Proceeding (react perform r) := by
  induction r using react.induct with
  | case1 => exact .pure _
  | case2 op next ih => exact (hperform op).discard.bind fun _ => .get_bind fun b => ih b

end Proceeding

theorem note_proceeding {e : Event} (haside : e.Aside)
    (hhanded : ∀ place, handings [e] place = []) : Proceeding (note e) := by
  intro b hb
  refine Lands.change fun _ => ?_
  refine hb.proceeds_note (hb.note haside fun place _ => hhanded place) hhanded ?_
  rw [haside.due_append, due_of_length_le (Nat.le_refl _)]

/-- In the middle of a publication, the command is handed to some more handlers. -/
theorem hand_lands {react : Handler → Command → Playing Unit}
    (hreact : ∀ handler c, Proceeding (react handler c)) {b₀ b : Board} {c : Command}
    {given : List Handing} (h : b₀.Midway c given b) (handlers : List Handler) :
    Lands (handlers.forM fun handler => do
        note (.handed b₀.events.length handler.registration handler.name c)
        react handler c) b
      fun x b' => x.isSome → b₀.Midway c (given ++ handlers.map (·.handing c)) b' := by
  -- on the handlers still to come; whatever one of them does, the publication is still midway
  induction handlers generalizing b given with
  | nil =>
    refine Lands.pure fun _ => ?_
    rw [List.map_nil, List.append_nil]
    exact h
  | cons handler rest ih =>
    have hhanded := h.hand handler
    refine Lands.then_bind (Lands.change_bind (hreact handler c _ hhanded.inOrder))
      (fun _ _ hnone => by cases hnone) fun _ b' hb' => ?_
    rw [List.map_cons, List.append_cons]
    exact ih (hhanded.proceed (hb' rfl))

/-- A command is published, with the operations of its handlers one level deeper. -/
theorem publish_proceeding {depth : Nat} (ih : ∀ op, Proceeding (play depth op)) (c : Command) :
    Proceeding (play (depth + 1) (.publish c)) := by
  intro b hb
  have hrecipients := hb.recipients c.subsystem
  have hlength : b.journal.length = b.events.length := b.journal.length_toList.symm
  unfold play
  refine Lands.get_bind (Lands.change_bind (Lands.then_bind (R := fun x b' => x.isSome →
    b.Proceeds b') ?_ (fun _ _ hnone => by cases hnone) fun _ _ hb' => Lands.pure fun _ => hb' rfl))
  unfold Bus.publish
  -- the recipients are those of the bus as it is now, before any of them is handed the command
  refine Lands.get_bind ?_
  dsimp only
  split
  · next hnone =>
    have hnone : b.bus.recipients c.subsystem = [] := hnone
    rw [hnone] at hrecipients
    exact Lands.change fun _ => hb.proceeds_postpone hrecipients.symm
  · next handlers hsome =>
    have hsome : registrations b.events c.subsystem ≠ [] := fun hnone =>
      hsome (List.map_eq_nil_iff.1 (hrecipients.trans hnone))
    have hreact (handler : Handler) (c : Command) : Proceeding (do
        react (play depth) (handler.respond (← get).journal c)) :=
      Proceeding.get_bind fun _ => react_proceeding ih _
    rw [hlength]
    refine (hand_lands hreact (hb.midway hsome) _).mono fun _ b' hb' hok =>
      (hb' hok).proceeds ?_
    rw [due_append_published, ← hrecipients, List.nil_append, List.map_map]
    rfl

/-- Every operation proceeds, at any depth. -/
theorem play_proceeding (depth : Nat) (op : Op) : Proceeding (play depth op) := by
  induction depth generalizing op with
  | zero => exact fun b _ => Lands.throw fun hnone => by cases hnone
  | succ depth ih =>
    cases op with
    | publish c => exact publish_proceeding ih c
    | subscribe name subsystem respond =>
      intro b hb
      have hregistered := hb.proceeds_register name subsystem respond
      rw [show b.events.length = b.journal.length from b.journal.length_toList] at hregistered
      exact Lands.get_bind (Lands.change_bind (Lands.change_bind (Lands.pure fun _ => hregistered)))
    | listenCompleted name =>
      exact fun b hb => Lands.change_bind (Lands.pure fun _ => hb.proceeds_listen _ _)
    | listenUnresolved name =>
      exact fun b hb => Lands.change_bind (Lands.pure fun _ => hb.proceeds_listen _ _)
    | drain =>
      exact fun b hb => Lands.get_bind (Lands.change_bind (Lands.change_bind
        (Lands.pure fun _ => hb.proceeds_drain)))
    | complete id =>
      have hnote (name : String) : Proceeding (note (.completed name id)) :=
        note_proceeding True.intro fun _ => rfl
      exact Proceeding.get_bind fun _ => (Proceeding.forM hnote).bind fun _ => .pure _
    | unresolved id reason =>
      have hnote (name : String) : Proceeding (note (.unresolved name id reason)) :=
        note_proceeding True.intro fun _ => rfl
      exact Proceeding.get_bind fun _ => (Proceeding.forM hnote).bind fun _ => .pure _

/-! ### The bound on nesting -/

/-- Whatever the first computation does without a failure, the second does as well. -/
def CarriesOver {α : Type} (a a' : Playing α) : Prop :=
  ∀ b x b', a.outcome b = (.ok x, b') → a'.outcome b = (.ok x, b')

namespace CarriesOver

variable {α β : Type}

protected theorem refl (a : Playing α) : CarriesOver a a := fun _ _ _ h => h

protected theorem bind {a a' : Playing α} {f f' : α → Playing β} (ha : CarriesOver a a')
    (hf : ∀ x, CarriesOver (f x) (f' x)) : CarriesOver (a >>= f) (a' >>= f') := by
  intro b y b'' h
  rw [outcome_bind] at h
  match houtcome : a.outcome b with
  | (.ok x, b') =>
    rw [houtcome] at h
    rw [outcome_bind_of_ok (ha b x b' houtcome)]
    exact hf x b' y b'' h
  | (.error e, b') =>
    rw [houtcome] at h
    cases h

theorem get_bind {f f' : Board → Playing β} (hf : ∀ b, CarriesOver (f b) (f' b)) :
    CarriesOver (get >>= f) (get >>= f') :=
  fun b => hf b b

protected theorem discard {a a' : Playing α} (ha : CarriesOver a a') :
    CarriesOver (discard a) (discard a') :=
  ha.bind fun _ => .refl _

protected theorem forM {xs : List β} {f f' : β → Playing Unit}
    (hf : ∀ x, CarriesOver (f x) (f' x)) : CarriesOver (xs.forM f) (xs.forM f') := by
  induction xs with
  | nil => exact .refl _
  | cons x rest ih => exact (hf x).bind fun _ => ih

protected theorem react {perform perform' : Op → Playing (Option (List Command))}
    (hperform : ∀ op, CarriesOver (perform op) (perform' op)) (r : Reaction) :
    CarriesOver (react perform r) (react perform' r) := by
  induction r using Switchboard.react.induct with
  | case1 => exact .refl _
  | case2 op next ih => exact (hperform op).discard.bind fun _ => get_bind fun b => ih b

end CarriesOver

/-- Handlers that nest no deeper than allowed do the same if they may nest one level deeper. -/
theorem play_succ_carriesOver (depth : Nat) (op : Op) :
    CarriesOver (play depth op) (play (depth + 1) op) := by
  induction depth generalizing op with
  | zero => exact fun b x b' h => by cases h
  | succ depth ih =>
    cases op with
    | publish c =>
      unfold play
      refine CarriesOver.get_bind fun _ => CarriesOver.bind (.refl _) fun _ =>
        CarriesOver.bind ?_ fun _ => .refl _
      unfold Bus.publish
      refine CarriesOver.bind (.refl _) fun bus => ?_
      split
      · exact .refl _
      · exact CarriesOver.forM fun handler => CarriesOver.bind (.refl _) fun _ =>
          CarriesOver.get_bind fun _ => .react ih _
    | _ => exact .refl _

theorem react_deeper {depth deeper : Nat} (hle : depth ≤ deeper) (r : Reaction) :
    CarriesOver (react (play depth) r) (react (play deeper) r) := by
  induction hle with
  | refl => exact .refl _
  | step hle ih =>
    exact fun b x b' h => CarriesOver.react (play_succ_carriesOver _) r b x b' (ih b x b' h)

/-- However a bus is operated, with whatever handlers operating it again, if only they do not nest
    without end: each published command is handed once to each handler that its subsystem had when
    it was published, in the order of registration, and nothing else is handed to anybody; each
    drain yields what was published without a handler since the one before, in the order of
    publication, and the rest waits. It does not matter how deep handlers may nest, as long as that
    suffices. -/
theorem deliveries_of_play (depth : Nat) (host : Reaction) {b : Board}
    (h : (react (play depth) host).outcome {} = (.ok (), b)) :
    (∀ place, handings b.events place = due b.events place) ∧
      (∀ place commands, b.events[place]? = some (.drained commands) →
        commands = waiting (b.events.take place)) ∧
      b.bus.outbox = waiting b.events ∧
      ∀ deeper ≥ depth, (react (play deeper) host).outcome {} = (.ok (), b) := by
  have hlands := react_proceeding (play_proceeding depth) host {} Board.inOrder_empty
  rw [Lands, h] at hlands
  have hproceeds := hlands rfl
  exact ⟨fun place => hproceeds.new place (Nat.zero_le _), hproceeds.inOrder.drained,
    hproceeds.inOrder.outbox, fun deeper hle => react_deeper hle host {} () b h⟩

/-- A line for the log waits until a handler drains the bus in the middle of a delivery. That
    handler registers another one, which is handed the next line but not the one at hand. -/
theorem deliveries_of_play_nested :
    let line (id : Int) : Command := { id, subsystem := .log, verb := "emit" }
    let look : Command := { id := 4, subsystem := .actor, verb := "look" }
    let host : Reaction := .ofList [.publish (line 1),
      .register "first" .log [.publish look, .drain, .register "second" .log []],
      .publish (line 2), .publish (line 3)]
    let b := ((react (play 3) host).outcome {}).2
    (react (play 3) host).outcome {} = (.ok (), b) ∧
      handings b.events 2 = [⟨1, "first", line 2⟩] ∧
      handings b.events 7 = [⟨1, "first", line 3⟩, ⟨6, "second", line 3⟩] ∧
      b.events[5]? = some (.drained [line 1, look]) ∧
      waiting (b.events.take 5) = [line 1, look] ∧
      b.bus.outbox = waiting b.events := by
  intro line look host b
  obtain ⟨_, hok⟩ : ∃ x, (react (play 3) host).outcome {} = (.ok x, b) :=
    Act.exists_outcome_eq_ok (by decide +kernel)
  obtain ⟨hhanded, hdrained, hwaiting, -⟩ := deliveries_of_play 3 host hok
  have hdrain : b.events[5]? = some (.drained [line 1, look]) := by cbv
  have htwo : due b.events 2 = [⟨1, "first", line 2⟩] := by cbv
  have hseven : due b.events 7 = [⟨1, "first", line 3⟩, ⟨6, "second", line 3⟩] := by cbv
  exact ⟨hok, (hhanded 2).trans htwo, (hhanded 7).trans hseven, hdrain,
    (hdrained 5 _ hdrain).symm, hwaiting⟩

end Switchboard

end VisualNovel

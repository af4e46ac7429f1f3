import VisualNovel.Trail

/-!
The transcript of a session: every line said and every log entry, in order. It only grows. Readers
look at it through views, which always show all of it, and walk it with iterators, which see
entries that are added while they walk.
-/

namespace VisualNovel

/-- A line of the transcript: who said it, if anybody, the text as it was shown, and the directive
    as it stands in the script. -/
structure HistoryEntry where
  speaker : Option String
  text : String
  echo : String
  deriving Repr, DecidableEq

/-- The transcript. -/
structure History where
  trail : Trail HistoryEntry := {}
  deriving Repr, DecidableEq

/-- The part of a list that a slice selects. Bounds below zero count from the end; a bound that is
    left out is the end that the slice starts from or runs to. -/
structure Slice where
  start : Option Int := none
  stop : Option Int := none
  step : Option Int := none

namespace Slice

/-- A bound as a position, kept within `low` and `high`. -/
def position (length low high : Int) (bound : Int) : Int :=
  let p := if bound < 0 then bound + length else bound
  max low (min high p)

/-- The positions from `at` on by `step`, as long as they lie before `stop`. -/
def walk (step stop : Int) : (count : Nat) → (place : Int) → List Int
  | 0, _ => []
  | count + 1, place =>
    if (0 < step ∧ place < stop) ∨ (step < 0 ∧ stop < place) then
      place :: walk step stop count (place + step)
    else []

/-- The positions that a slice selects in a list of a given length; none for a step of zero. -/
def positions? (s : Slice) (length : Nat) : Option (List Nat) :=
  let n : Int := length
  let step := s.step.getD 1
  if step = 0 then none
  else
    let forward : Bool := 0 < step
    let low : Int := if forward then 0 else -1
    let high : Int := if forward then n else n - 1
    let start := match s.start with
      | some b => position n low high b
      | none => if forward then 0 else n - 1
    let stop := match s.stop with
      | some b => position n low high b
      | none => if forward then n else -1
    some ((walk step stop length start).map Int.toNat)

end Slice

namespace History

/-- The entries, oldest first. -/
def entries (h : History) : List HistoryEntry := h.trail.toList

def length (h : History) : Nat := h.trail.length

def record (h : History) (e : HistoryEntry) : History := ⟨h.trail.push e⟩

@[simp] theorem entries_record (h : History) (e : HistoryEntry) :
    (h.record e).entries = h.entries ++ [e] :=
  h.trail.toList_push e

@[simp] theorem length_entries (h : History) : h.entries.length = h.length :=
  h.trail.length_toList

/-- The entry at an index; an index below zero counts from the end. -/
def get? (h : History) (index : Int) : Option HistoryEntry :=
  let i := if index < 0 then index + h.length else index
  if i < 0 then none else h.entries[i.toNat]?

/-- A copy of the entries that a slice selects; none for a step of zero. -/
def slice? (h : History) (s : Slice) : Option (List HistoryEntry) :=
  (s.positions? h.length).map fun ps => ps.filterMap fun i => h.entries[i]?

/-- The index of the first entry that equals a given one. -/
def indexOf? (h : History) (e : HistoryEntry) : Option Nat :=
  h.entries.findIdx? (· == e)

/-- A walk along the transcript: how many entries it has given, and whether it has ended. -/
structure Iterator where
  given : Nat := 0
  isEnded : Bool := false
  deriving Repr, DecidableEq

/-- One step of a walk. A walk ends when there is nothing new at the moment of the step, and an
    ended walk stays ended. -/
def next (h : History) (it : Iterator) : Option HistoryEntry × Iterator :=
  if it.isEnded then (none, it)
  else
    match h.entries[it.given]? with
    | some e => (some e, { it with given := it.given + 1 })
    | none => (none, { it with isEnded := true })

/-- A whole walk during which, after each entry given, the next of `arriving` is recorded. The
    texts given, and the transcript afterwards. -/
def walkRecording (h : History) (arriving : List HistoryEntry) : List String × History :=
  go (h.length + arriving.length + 1) h {} arriving
where
  go : Nat → History → Iterator → List HistoryEntry → List String × History
    | 0, h, _, _ => ([], h)
    | steps + 1, h, it, arriving =>
      match h.next it with
      | (none, _) => ([], h)
      | (some e, it) =>
        let (h, arriving) := match arriving with
          | a :: rest => (h.record a, rest)
          | [] => (h, [])
        let (texts, h) := go steps h it arriving
        (e.text :: texts, h)

end History

end VisualNovel

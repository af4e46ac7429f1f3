import VisualNovel.Stage.Typewriter

/-!
The dialogue box: the line it shows, how much of it has appeared, and what a press of the player
does to it. The first press completes a line that is still appearing; only a press on a complete
line asks the story to go on.
-/

namespace VisualNovel

/-- A line in the box; one without a text is complete at once. `visible` holds the positions of the
    characters that can be seen, in order; a line end is none of them. -/
structure RevealedLine (α : Type) where
  speaker : Option String
  text : Option String
  duration : α
  elapsed : α
  fractions : List α
  visible : List Nat

/-- How many entries of an ascending table do not exceed `x`, by halving the part between `lo` and
    `hi` in which the boundary lies. -/
def countUpTo {α : Type} [Scalar α] (table : Array α) (x : α) (lo hi : Nat) : Nat :=
  if _h : lo < hi then
    let mid := (lo + hi) / 2
    match table[mid]? with
    | some y => if Scalar.less x y then countUpTo table x lo mid else countUpTo table x (mid + 1) hi
    | none => countUpTo table x lo mid
  else lo
  termination_by hi - lo

namespace RevealedLine

variable {α : Type} [Scalar α]

/-- A line as it comes into the box. -/
def start (rp : RevealParams α) (speaker text : Option String) : RevealedLine α :=
  let chars := (text.getD "").toList
  let timing := Typewriter.timing rp chars
  { speaker := speaker
    text := text
    duration := timing.total
    elapsed := Scalar.zero
    fractions := timing.fractions
    visible := (chars.zipIdx.filter fun (c, _) => c != '\n').map (·.2) }

/-- A line counts as complete a tenth of a millisecond before its time. -/
def isFinished (line : RevealedLine α) : Bool :=
  Scalar.lessEq (line.duration - Scalar.decimal 1 4) line.elapsed

/-- How many of the visible characters have appeared. -/
def visibleCount (line : RevealedLine α) : Nat :=
  if line.isFinished then line.visible.length
  else
    let table := line.fractions.toArray
    countUpTo table (line.elapsed / line.duration) 0 table.size - 1

/-- The text up to the last character that has appeared. -/
def visibleText (line : RevealedLine α) : Option String :=
  let count := line.visibleCount
  if line.visible.length ≤ count then line.text
  else if count = 0 then some ""
  else
    match line.visible[count - 1]? with
    | some last => line.text.map fun s => String.ofList (s.toList.take (last + 1))
    | none => line.text

end RevealedLine

/-- The dialogue box. -/
structure DialogueBox (α : Type) where
  params : RevealParams α
  line : Option (RevealedLine α) := none

namespace DialogueBox

variable {α : Type} [Scalar α]

def «show» (box : DialogueBox α) (speaker text : Option String) : DialogueBox α :=
  { box with line := some (RevealedLine.start box.params speaker text) }

def hide (box : DialogueBox α) : DialogueBox α := { box with line := none }

/-- A line is there and still appearing. -/
def isRevealing (box : DialogueBox α) : Bool :=
  match box.line with
  | some line => !line.isFinished
  | none => false

/-- The box after a time; a complete line stays as it is. -/
def update (box : DialogueBox α) (dt : α) : DialogueBox α :=
  match box.line with
  | some line =>
    if line.isFinished then box
    else
      { box with
        line := some { line with elapsed := Scalar.least line.duration (line.elapsed + dt) } }
  | none => box

/-- The box with its line complete, and whether there was anything to complete. -/
def complete (box : DialogueBox α) : Bool × DialogueBox α :=
  match box.line with
  | some line =>
    if line.isFinished then (false, box)
    else (true, { box with line := some { line with elapsed := line.duration } })
  | none => (false, box)

/-- The box after a press, and whether the press is one for the story. -/
def press (box : DialogueBox α) : Bool × DialogueBox α :=
  if box.line.isNone then (false, box)
  else
    let (completed, box) := box.complete
    (!completed, box)

end DialogueBox

end VisualNovel

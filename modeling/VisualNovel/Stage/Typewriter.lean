import VisualNovel.Stage.Scalar

/-!
How long each character of a line takes to appear. Characters come at an even speed; a pause
follows punctuation and line ends, and is spent before the next character that can be seen.
Three dots in a row pause once, after the first of them.
-/

namespace VisualNovel

/-- The speed of the typewriter and its pauses. -/
structure RevealParams (α : Type) where
  charsPerSecond : α
  shortPause : α
  longPause : α
  ellipsisPause : α

/-- Fifty characters a second, with pauses well under half a second. -/
def RevealParams.standard {α : Type} [Scalar α] : RevealParams α where
  charsPerSecond := Scalar.nat 50
  shortPause := Scalar.decimal 6 2
  longPause := Scalar.decimal 25 2
  ellipsisPause := Scalar.decimal 35 2

namespace Typewriter

variable {α : Type} [Scalar α]

/-- The time of one character without pauses. Speeds of zero and below count as very slow. -/
def base (rp : RevealParams α) : α :=
  Scalar.one / Scalar.greatest (Scalar.decimal 1 6) rp.charsPerSecond

/-- The pause that a character other than a line end leaves behind. -/
def pauseAfter (rp : RevealParams α) (c : Char) : α :=
  if c == ',' || c == ';' || c == ':' then rp.shortPause
  else if c == '.' || c == '!' || c == '?' then rp.longPause
  else Scalar.zero

/-- The times of the visible characters, in order, and the pause left over at the end. `carry` is
    the pause pending before the next visible character. -/
def times (rp : RevealParams α) (carry : α) : List Char → List α × α
  | [] => ([], carry)
  | '\n' :: rest => times rp (carry + rp.longPause) rest
  | '.' :: '.' :: '.' :: rest =>
    let (ts, left) := times rp Scalar.zero rest
    ((base rp + carry) :: (base rp + rp.ellipsisPause) :: base rp :: ts, left)
  | c :: rest =>
    let (ts, left) := times rp (pauseAfter rp c) rest
    ((base rp + carry) :: ts, left)

/-- The sums of the beginnings of a list, each added to `acc`. -/
def runningSums (acc : α) : List α → List α
  | [] => []
  | t :: rest => (acc + t) :: runningSums (acc + t) rest

/-- When a line is complete, and the fraction of that time at which each number of visible
    characters is reached, from none on. -/
structure Timing (α : Type) where
  total : α
  fractions : List α

/-- The timing of a line. Punctuation at its end keeps its pause as a delay. -/
def timing (rp : RevealParams α) (text : List Char) : Timing α :=
  let (ts, left) := times rp Scalar.zero text
  let total := Scalar.sum ts + left
  if Scalar.lessEq total Scalar.zero then ⟨Scalar.zero, [Scalar.zero]⟩
  else ⟨total, Scalar.zero :: (runningSums Scalar.zero ts).map (· / total)⟩

end Typewriter

end VisualNovel

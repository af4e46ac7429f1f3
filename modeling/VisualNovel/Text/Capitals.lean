import VisualNovel.Text.CapitalRanges

/-!
Text in capital letters.
-/

namespace VisualNovel.Text

/-- The capital of a letter that lies in a run. -/
def capitalIn? (n : Nat) : CaseRun → Option Nat
  | (first, last, step, capital) =>
    if first ≤ n && n ≤ last && (n - first) % step == 0 then some (capital + (n - first)) else none

/-- The capital form of a character, itself where it has none. -/
def capitals (c : Char) : List Char :=
  let n := c.toNat
  if n < 0x80 then [c.toUpper]
  else
    match longCapitals.find? fun (small, _) => small == n with
    | some (_, codes) => codes.map Char.ofNat
    | none =>
      match caseRuns.findSome? fun runs => runs.findSome? (capitalIn? n) with
      | some code => [Char.ofNat code]
      | none => [c]

/-- The text in capital letters. -/
def toCapitals (cs : List Char) : List Char := cs.flatMap capitals

end VisualNovel.Text

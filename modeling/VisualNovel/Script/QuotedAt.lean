import VisualNovel.Script.Quoted

/-!
Quoted expressions at an index of a line. An index below zero counts from the end of the line, and
reading from there goes round: after the last character of the line comes the first one again. A
reference to a variable does not go round. It has to end before the line does, and after one the
line is only read to its end.
-/

namespace VisualNovel.Script

open Text

/-- Why no expression is read at an index. -/
inductive QuoteError where
  | malformed (e : SyntaxError)
  /-- The index lies further below zero than the line is long. -/
  | beforeLine
  deriving Repr, DecidableEq

/-- The characters of a line before an index. -/
def Line.before (line : Line) (index : Int) : List Char :=
  line.text.take (if 0 ≤ index then index else line.text.length + index).toNat

/-- A mistake at an index of a line. -/
def Line.errorAt (source : Option String) (line : Line) (index : Int) (mistake : Mistake)
    (token : List Char) : SyntaxError :=
  { mistake, source
    line := line.number
    column := index + 1
    offset := line.offset + utf8Length (line.before index)
    token := String.ofList token }

/-- Reading from an index that is not below zero: the expression and the index after its closing
    quote. -/
def readForward (source : Option String) (line : Line) (start : Nat) :
    Except SyntaxError (Expression × Nat) :=
  let text := line.text.drop start
  match readQuoted text with
  | .ok (e, tail) => .ok (e, start + (text.length - tail.length))
  | .error flaw =>
    let index := start + (text.length - flaw.rest.length)
    .error (line.errorAt source index flaw.mistake flaw.token)

/-- How many characters of a quoted text come before its first reference, if that begins before
    the last character. -/
def charsToReference? : List Char → Option Nat
  | [] => none
  | '\\' :: _ :: rest => (charsToReference? rest).map (· + 2)
  | '"' :: _ => none
  | '{' :: _ :: _ => some 0
  | _ :: rest => (charsToReference? rest).map (· + 1)

/-- The piece to blame for a mistake at an index below zero. A piece of one or two characters that
    would reach the end of the line is empty, and so is one that goes round. -/
def tokenBelow (text : List Char) (index : Int) (flaw : Flaw) : List Char :=
  match flaw.mistake with
  | .unterminatedReference => text.drop (text.length + index).toNat
  | .unknownEscape => if index < -2 then flaw.token else []
  | .badVariableName => if index < -1 then flaw.token else []
  | _ => flaw.token

/-- Reading from an index below zero, given the line from there on without its first character, a
    quote. -/
def readRound (source : Option String) (line : Line) (start : Int) (body : List Char) :
    Except SyntaxError (Expression × Int) :=
  let text := line.text
  let reference := charsToReference? body
  let rest := if reference.isSome then body else body ++ text
  let toReference := reference.getD rest.length
  let indexAfter (count : Nat) : Int :=
    if count ≤ toReference then start + 1 + count else text.length + start + 1 + count
  match scan (some ('"' :: body)) rest with
  | .ok (atoms, tail) => .ok (Expression.ofAtoms atoms, indexAfter (rest.length - tail.length))
  | .error flaw =>
    if flaw.mistake = .unterminatedText then
      .error (line.errorAt source start flaw.mistake flaw.token)
    else
      let index := indexAfter (rest.length - flaw.rest.length)
      .error (line.errorAt source index flaw.mistake
        (if index < 0 then tokenBelow text index flaw else flaw.token))

/-- Reading of a quoted expression from an index of a line on: the expression and the index after
    its closing quote. -/
def readQuotedAt (source : Option String) (line : Line) (start : Int) :
    Except QuoteError (Expression × Int) :=
  if 0 ≤ start then
    ((readForward source line start.toNat).map fun (e, stop) => (e, (stop : Int))).mapError
      .malformed
  else
    match line.text.drop (line.text.length + start).toNat with
    | '"' :: body =>
      if line.text.length + start < 0 then .error .beforeLine
      else (readRound source line start body).mapError .malformed
    | rest =>
      if line.text.length + start < 0 then .error .beforeLine
      else
        let token := if start < -1 then rest.take 1 else []
        .error (.malformed (line.errorAt source start .expectedText token))

end VisualNovel.Script

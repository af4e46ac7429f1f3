import VisualNovel.Yaml.Flaw
import VisualNovel.Yaml.Node
import VisualNovel.Yaml.Resolution
import VisualNovel.Yaml.Source

/-!
Scalars: plain ones, which end where the structure around them goes on, and quoted ones. Both may
run over several lines, which are then folded into one.
-/

namespace VisualNovel.Yaml

/-! ### Plain scalars -/

/-- Whether a plain scalar may begin with this text. -/
def plainBegins (inFlow : Bool) : List Char → Bool
  | [] => false
  | c :: rest =>
    if c == '-' then !blankFollows rest
    else if c == '?' || c == ':' then !inFlow && !blankFollows rest
    else !blankFollows [c] && !(",[]\x7b\x7d#&*!|>'\"%@`".toList.contains c)

/-- Whether a plain scalar goes no further than the character before this text. -/
def plainEnds (inFlow : Bool) : List Char → Bool
  | [] => true
  | c :: rest =>
    blankFollows [c] ||
      (c == ':' &&
        (blankFollows rest || (inFlow && ",[]\x7b\x7d".toList.contains (rest.headD ' ')))) ||
      (inFlow && ",?[]\x7b\x7d".toList.contains c)

/-- The part of a plain scalar up to the next blank, and the text after it. -/
def plainPart (inFlow : Bool) : List Char → List Char × List Char
  | [] => ([], [])
  | c :: rest =>
    if plainEnds inFlow (c :: rest) then ([], c :: rest)
    else
      let (part, after) := plainPart inFlow rest
      (c :: part, after)

/-- The blanks after a part of a plain scalar as they count between two parts, and the place after
    them. There is no going on after nothing. -/
def plainGap (s : Source) : List Char × Source :=
  let spaces := s.rest.takeWhile (· == ' ')
  let t := s.drop spaces.length
  match t.rest with
  | c :: _ => if isBreak c then (t.fold false).getD ([], t.skip) else (spaces, t)
  | [] => (spaces, t)

/-- The text of a plain scalar whose text so far is given, the last character first, and the place
    after it. On further lines it goes on only from the column `floor` on. Each step reads a
    character, so the length of the text bounds the steps. -/
def plainFrom (inFlow : Bool) (floor : Nat) :
    (steps : Nat) → (reversed : List Char) → Source → List Char × Source
  | 0, reversed, s => (reversed.reverse, s)
  | steps + 1, reversed, s =>
    let (part, after) := plainPart inFlow s.rest
    let reversed := part.reverse ++ reversed
    let (gap, t) := plainGap { s with rest := after, column := s.column + part.length }
    let stops := part.isEmpty || gap.isEmpty || t.rest.head? == some '#' ||
      (!inFlow && t.column < floor) || plainEnds inFlow t.rest
    if stops then (reversed.reverse, t)
    else plainFrom inFlow floor steps (gap.reverse ++ reversed) t

/-! ### Quoted scalars -/

/-- The character that a letter after a backslash stands for. -/
def escapes : List (Char × Char) := [
  ('0', '\x00'), ('a', '\x07'), ('b', '\x08'), ('t', '\t'), ('\t', '\t'), ('n', '\n'),
  ('v', '\x0b'), ('f', '\x0c'), ('r', '\x0d'), ('e', '\x1b'), (' ', ' '), ('"', '"'),
  ('\\', '\\'), ('/', '/'), ('N', '\x85'), ('_', '\xa0'), ('L', '\u2028'), ('P', '\u2029')]

/-- How many digits follow a letter after a backslash that introduces a code. -/
def codeLength? : Char → Option Nat
  | 'x' => some 2
  | 'u' => some 4
  | 'U' => some 8
  | _ => none

/-- The code that a text begins with. -/
def code? (length : Nat) (cs : List Char) : Option Nat :=
  let digits := cs.take length
  if digits.length < length then none
  else (digits.mapM (digitIn? 16)).map (Number.ofDigits 16)

/-- The character with a code. -/
def character (code : Nat) : Except Flaw Char :=
  if code.isValidChar then .ok (Char.ofNat code)
  else if 0x7fffffff < code then .error (.scalar .tooLarge)
  else if 0x10ffff < code then .error (.scalar .noCharacter)
  else .error .badEscape

/-- The character whose code is the pair of these halves. -/
def ofHalves (high low : Nat) : Char :=
  Char.ofNat (0x10000 + (high - 0xd800) * 0x400 + (low - 0xdc00))

/-- The code of the lower half of a pair that a text begins with, after a backslash. -/
def lowerHalf? : List Char → Option Nat
  | '\\' :: 'u' :: rest => (code? 4 rest).filter fun low => 0xdc00 ≤ low && low < 0xe000
  | _ => none

/-- The character after a backslash, and the number of characters that write it. Two codes of four
    digits may write one character, as the halves of a pair. -/
def escaped : List Char → Except Flaw (Char × Nat)
  | [] => .error .badEscape
  | c :: rest =>
    match escapes.lookup c, codeLength? c with
    | some meaning, _ => .ok (meaning, 1)
    | none, none => .error .badEscape
    | none, some length =>
      match code? length rest with
      | none => .error .badEscape
      | some code =>
        match if 0xd800 ≤ code ∧ code < 0xdc00 then lowerHalf? (rest.drop length) else none with
        | some low => .ok (ofHalves code low, length + 7)
        | none => (character code).map (·, length + 1)

/-- One step in a quoted scalar: what the text from here on adds, and the place after it; nothing
    at the closing mark. -/
def quotedStep (mark : Char) (s : Source) : Except Flaw (Option (List Char × Source)) :=
  let isDouble := mark == '"'
  match s.rest with
  | [] => .error .unclosed
  | c :: rest =>
    if c == mark then
      match rest with
      | d :: _ => .ok (if !isDouble && d == mark then some ([mark], s.drop 2) else none)
      | [] => .ok none
    else if blankFollows [c] then
      let blanks := s.rest.takeWhile fun c => c == ' ' || c == '\t'
      let t := s.drop blanks.length
      match t.rest with
      | [] => .error .unclosed
      | d :: _ =>
        if isBreak d then
          match t.fold true with
          | some step => .ok (some step)
          | none => .error .unclosed
        else .ok (some (blanks, t))
    else if isDouble && c == '\\' then
      match rest with
      | [] => .error .unclosed
      | d :: _ =>
        if isBreak d then
          match Source.breaksFrom true s.line (s.column + 1) [] rest with
          | some (breaks, t) => .ok (some (breaks.drop 1, t))
          | none => .error .unclosed
        else
          (escaped rest).map fun (meaning, length) => some ([meaning], s.drop (length + 1))
    else .ok (some ([c], s.drop 1))

/-- The text of a quoted scalar whose text so far is given, the last character first, and the place
    after its closing mark. Each step reads a character, so the length of the text bounds the
    steps. -/
def quotedFrom (mark : Char) :
    (steps : Nat) → (reversed : List Char) → Source → Except Flaw (List Char × Source)
  | 0, _, _ => .error .unclosed
  | steps + 1, reversed, s =>
    match quotedStep mark s with
    | .error e => .error e
    | .ok none => .ok (reversed.reverse, s.drop 1)
    | .ok (some (text, t)) => quotedFrom mark steps (text.reverse ++ reversed) t

/-! ### Both -/

/-- The scalar that begins here, and the place after it. -/
def scalar (inFlow : Bool) (floor : Nat) (s : Source) : Except Flaw (Node × Source) :=
  match s.rest with
  | [] => .error .noNode
  | c :: _ =>
    if c == '"' || c == '\'' then do
      let (text, t) ← quotedFrom c s.rest.length [] (s.drop 1)
      return (.quoted (String.ofList text), t)
    else if plainBegins inFlow s.rest then do
      let (text, t) := plainFrom inFlow floor s.rest.length [] s
      return (.plain text, t)
    else .error .noNode

end VisualNovel.Yaml

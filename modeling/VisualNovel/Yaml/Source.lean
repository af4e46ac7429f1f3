/-!
The text of a document as its reader sees it: what is left, and where that stands. What is left
only ever gets shorter.
-/

namespace VisualNovel.Yaml

/-- What is left of a text, and the line and column of its first character. -/
structure Source where
  rest : List Char
  line : Nat := 0
  column : Nat := 0
  deriving Inhabited

/-- A character that ends a line. -/
def isBreak (c : Char) : Bool :=
  c == '\n' || c == '\r' || c == '\x85' || c == '\u2028' || c == '\u2029'

/-- Whether a text begins with a blank or a line end, or is at its end. -/
def blankFollows : List Char → Bool
  | [] => true
  | c :: _ => c == ' ' || c == '\t' || isBreak c

/-- Whether a text begins with the mark between documents, or with the one after a document. -/
def beginsWithMarker : List Char → Bool
  | '-' :: '-' :: '-' :: rest => blankFollows rest
  | '.' :: '.' :: '.' :: rest => blankFollows rest
  | _ => false

/-- A character that a document may hold. -/
def isPrintable (c : Char) : Bool :=
  let n := c.toNat
  n == 0x9 || n == 0xa || n == 0xd || (0x20 ≤ n && n ≤ 0x7e) || n == 0x85 ||
    (0xa0 ≤ n && n ≤ 0xd7ff) || (0xe000 ≤ n && n ≤ 0xfffd) || 0x10000 ≤ n

namespace Source

/-- The source without characters of the current line. -/
def drop (s : Source) (n : Nat) : Source :=
  { s with rest := s.rest.drop n, column := s.column + n }

/-- The first place that is neither a space nor a line end nor in a comment. -/
def skipFrom (line column : Nat) (inComment : Bool) : List Char → Source
  | [] => ⟨[], line, column⟩
  | c :: rest =>
    if isBreak c then skipFrom (line + 1) 0 false rest
    else if inComment || c == ' ' then skipFrom line (column + 1) inComment rest
    else if c == '#' then skipFrom line (column + 1) true rest
    else ⟨c :: rest, line, column⟩

/-- The source from the next thing that means something. -/
def skip (s : Source) : Source := skipFrom s.line s.column false s.rest

/-- Whether the document ends here: with the text, or with a marker at the start of a line. -/
def atEnd (s : Source) : Bool :=
  s.rest.isEmpty || (s.column == 0 && beginsWithMarker s.rest)

/-- Whether an entry of a list begins here. -/
def atEntry (s : Source) : Bool :=
  match s.rest with
  | '-' :: rest => blankFollows rest
  | _ => false

/-- Whether the mark between a key and its value stands here. -/
def atColon (s : Source) : Bool :=
  match s.rest with
  | ':' :: rest => blankFollows rest
  | _ => false

/-- The line ends from here on, without the blanks between them, and the place after them; none if
    the document ends there. -/
def breaksFrom (tabs : Bool) (line column : Nat) (seen : List Char) :
    List Char → Option (List Char × Source)
  | [] => some (seen.reverse, ⟨[], line, column⟩)
  | c :: rest =>
    if column == 0 && beginsWithMarker (c :: rest) then none
    else if c == ' ' || (tabs && c == '\t') then breaksFrom tabs line (column + 1) seen rest
    else if isBreak c then
      let kept := if c == '\u2028' || c == '\u2029' then c else '\n'
      breaksFrom tabs (line + 1) 0 (kept :: seen) rest
    else some (seen.reverse, ⟨c :: rest, line, column⟩)

/-- The text that stands for the line ends from here on: a space for a single one, else all but
    the first; and the place after them. -/
def fold (tabs : Bool) (s : Source) : Option (List Char × Source) := do
  let (breaks, t) ← breaksFrom tabs s.line (s.column + 1) [] s.rest
  match breaks with
  | [] => return ([], t)
  | first :: others =>
    if first != '\n' then return (breaks, t)
    else if others.isEmpty then return ([' '], t)
    else return (others, t)

end Source

end VisualNovel.Yaml

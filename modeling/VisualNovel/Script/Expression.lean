/-!
Text that is only complete once the story runs: literal parts and references to variables.

An expression is also a sequence of atoms, single characters and references. Two expressions with
the same atoms say the same thing, and among them exactly one is in normal form: it has no empty
literal and no two literals side by side.
-/

namespace VisualNovel

inductive Segment where
  | literal (text : String)
  | variable (name : String)
  deriving Repr, DecidableEq

abbrev Expression := List Segment

/-- The smallest part of an expression. -/
inductive Atom where
  | char (c : Char)
  | variable (name : String)
  deriving Repr, DecidableEq

def Segment.atoms : Segment → List Atom
  | .literal text => text.toList.map .char
  | .variable name => [.variable name]

namespace Expression

/-- The names of the variables, in order of occurrence. -/
def variableNames (e : Expression) : List String :=
  e.filterMap fun
    | .variable name => some name
    | .literal _ => none

/-- The literal parts, joined. -/
def literalText (e : Expression) : String :=
  String.join (e.filterMap fun
    | .literal text => some text
    | .variable _ => none)

def atoms (e : Expression) : List Atom := e.flatMap Segment.atoms

/-- A literal for the characters gathered so far, unless there are none. -/
def gathered : List Char → List Segment
  | [] => []
  | cs => [.literal (String.ofList cs)]

/-- Atoms as segments: each longest run of characters is one literal. -/
def ofAtoms (atoms : List Atom) : Expression :=
  go [] atoms
where
  /-- `run` holds the characters of the current literal, the last one first. -/
  go (run : List Char) : List Atom → List Segment
    | [] => gathered run.reverse
    | .char c :: rest => go (c :: run) rest
    | .variable name :: rest => gathered run.reverse ++ .variable name :: go [] rest

/-- The one expression in normal form with the same atoms. -/
def normalize (e : Expression) : Expression := ofAtoms e.atoms

end Expression

end VisualNovel

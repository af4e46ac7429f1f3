import VisualNovel.Text.Words

/-!
Paths in their plain form: no empty part and no part that is a single dot. Two dots stay, because
what they mean depends on the files.
-/

namespace VisualNovel

/-- A path: its root, empty for a relative one, and its parts. -/
structure Path where
  root : String
  parts : List String
  deriving Repr, DecidableEq

namespace Path

/-- The plain form of a path's text. Exactly two slashes at its start are a root of their own. -/
def ofString (text : String) : Path :=
  let cs := text.toList
  let parts := ((Text.splitAtEach '/' cs).map String.ofList).filter fun p => p != "" && p != "."
  let root :=
    match cs with
    | '/' :: '/' :: '/' :: _ => "/"
    | '/' :: '/' :: _ => "//"
    | '/' :: _ => "/"
    | _ => ""
  ⟨root, parts⟩

def isAbsolute (p : Path) : Bool := !p.root.isEmpty

/-- Whether a path can be one of a file, which it cannot with the character that ends names. -/
def isNameable (p : Path) : Bool := (p.root :: p.parts).all fun part => !part.toList.contains '\x00'

/-- The text of a path; the empty path is the current directory. -/
def toString (p : Path) : String :=
  if p.root.isEmpty && p.parts.isEmpty then "." else p.root ++ String.intercalate "/" p.parts

instance : ToString Path := ⟨toString⟩

/-- A path below another one; an absolute path replaces what is before it. -/
def join (p q : Path) : Path := if q.isAbsolute then q else ⟨p.root, p.parts ++ q.parts⟩

instance : Div Path := ⟨join⟩

/-- The last part, empty for a root or for the current directory. -/
def name (p : Path) : String := p.parts.getLast?.getD ""

/-- The index of the dot before the suffix of a name: the last dot, unless it is the first or the
    last character. -/
def suffixStart? (name : List Char) : Option Nat :=
  let after := (name.reverse.takeWhile (· != '.')).length
  if after = 0 ∨ name.length ≤ after + 1 then none else some (name.length - after - 1)

/-- The suffix of the last part with its dot, empty where there is none. -/
def suffix (p : Path) : String :=
  match suffixStart? p.name.toList with
  | some i => String.ofList (p.name.toList.drop i)
  | none => ""

/-- The path with text added to its last part. -/
def appendToName (p : Path) (text : String) : Path :=
  ⟨p.root, p.parts.dropLast ++ [p.name ++ text]⟩

end Path

end VisualNovel

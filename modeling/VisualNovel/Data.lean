import VisualNovel.Calendar
import VisualNovel.Number.Numeral
import VisualNovel.Text.Quotation

/-!
Untyped data: what a definition file or a settings file holds once it is read, and what a variable
of the story holds. A mapping is the list of its entries in the order of the file, with no key
twice.
-/

namespace VisualNovel

inductive Data where
  | null
  | bool (b : Bool)
  | int (n : Int)
  | float (x : Float)
  | text (s : String)
  | day (d : Day)
  | moment (m : Moment)
  | list (items : List Data)
  | map (entries : List (Data × Data))
  deriving Inhabited

namespace Data

mutual

/-- Whether two data are the same, part by part. -/
def beq : Data → Data → Bool
  | .null, .null => true
  | .bool b, .bool c => b == c
  | .int m, .int n => m == n
  | .float x, .float y => x == y
  | .text s, .text t => s == t
  | .day d, .day e => d == e
  | .moment m, .moment n => m == n
  | .list items, .list items' => beqItems items items'
  | .map entries, .map entries' => beqEntries entries entries'
  | _, _ => false

def beqItems : List Data → List Data → Bool
  | [], [] => true
  | d :: rest, d' :: rest' => beq d d' && beqItems rest rest'
  | _, _ => false

def beqEntries : List (Data × Data) → List (Data × Data) → Bool
  | [], [] => true
  | (k, v) :: rest, (k', v') :: rest' => beq k k' && beq v v' && beqEntries rest rest'
  | _, _ => false

end

instance : BEq Data := ⟨beq⟩

/-- The number that a datum counts as, whole or not: a truth value is zero or one. -/
def number? : Data → Option (Int ⊕ Float)
  | .bool b => some (.inl (if b then 1 else 0))
  | .int n => some (.inl n)
  | .float x => some (.inr x)
  | _ => none

/-- Whether two numbers have the same value. -/
def sameNumber : Int ⊕ Float → Int ⊕ Float → Bool
  | .inl m, .inl n => m == n
  | .inl n, .inr x => Number.isEqualTo x n
  | .inr x, .inl n => Number.isEqualTo x n
  | .inr x, .inr y => x == y

/-- Whether two data are the same null, text, day, instant or number. -/
def sameScalar (a b : Data) : Bool :=
  match a, b with
  | .null, .null => true
  | .text s, .text t => s == t
  | .day d, .day e => d == e
  | .moment m, .moment n => m.same n
  | _, _ =>
    match a.number?, b.number? with
    | some m, some n => sameNumber m n
    | _, _ => false

/-- The value of a mapping under a text key. -/
def get? (key : String) (entries : List (Data × Data)) : Option Data :=
  (entries.find? fun (k, _) => k == .text key).map (·.2)

mutual

/-- The text of a datum inside another one: texts are quoted. -/
def nested : Data → String
  | .null => "None"
  | .bool b => if b then "True" else "False"
  | .int n => toString n
  | .float x => Number.shortest x
  | .text s => Text.quote s
  | .day d => d.nested
  | .moment m => m.nested
  | .list items => "[" ++ String.intercalate ", " (nestedItems items) ++ "]"
  | .map entries => "\x7b" ++ String.intercalate ", " (nestedEntries entries) ++ "\x7d"

def nestedItems : List Data → List String
  | [] => []
  | d :: rest => nested d :: nestedItems rest

def nestedEntries : List (Data × Data) → List String
  | [] => []
  | (k, v) :: rest => (nested k ++ ": " ++ nested v) :: nestedEntries rest

end

/-- The text of a datum; a text stands for itself. -/
def display : Data → String
  | .text s => s
  | .day d => d.display
  | .moment m => m.display
  | d => d.nested

mutual

/-- Whether a datum has a text. A whole number of more digits than are read has none. -/
def isWritable : Data → Bool
  | .int n => n.natAbs < Nat.pow 10 Number.digitLimit
  | .list items => areWritable items
  | .map entries => areEntriesWritable entries
  | _ => true

def areWritable : List Data → Bool
  | [] => true
  | d :: rest => isWritable d && areWritable rest

def areEntriesWritable : List (Data × Data) → Bool
  | [] => true
  | (k, v) :: rest => isWritable k && isWritable v && areEntriesWritable rest

end

/-- The text of a datum that has one. -/
def display? (d : Data) : Option String := if d.isWritable then some d.display else none

/-- Whether a datum counts as given: not null, false, zero or empty. -/
def isTruthy : Data → Bool
  | .null => false
  | .bool b => b
  | .int n => n ≠ 0
  | .float x => !(x == 0)
  | .text s => !s.isEmpty
  | .day _ | .moment _ => true
  | .list items => !items.isEmpty
  | .map entries => !entries.isEmpty

end Data

end VisualNovel

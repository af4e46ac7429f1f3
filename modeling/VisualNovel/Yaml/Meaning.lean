import VisualNovel.Yaml.Document

/-!
What a document means: the datum that its node stands for. A mapping holds each key once; of two
values under one key the later counts, in the place of the earlier. The entries of mappings under
merge keys come before all others, and those of an earlier mapping of a list count more.
-/

namespace VisualNovel.Yaml

/-- The entries of a mapping with a further one. -/
def addEntry (entries : List (Data × Data)) : Data × Data → List (Data × Data)
  | (key, value) =>
    if entries.any fun (k, _) => k.sameScalar key then
      entries.map fun (k, v) => if k.sameScalar key then (k, value) else (k, v)
    else entries ++ [(key, value)]

/-- The entries of mappings, those of the last one first. -/
def mergedItems : List Data → Except Flaw (List (Data × Data))
  | [] => .ok []
  | .map entries :: rest => do return (← mergedItems rest) ++ entries
  | _ => .error .noMerge

/-- The entries that a datum under a merge key gives. -/
def mergedEntries : Data → Except Flaw (List (Data × Data))
  | .map entries => .ok entries
  | .list items => mergedItems items
  | _ => .error .noMerge

/-- A key that stands for entries of other mappings. -/
def isMergeKey : Node → Bool
  | .plain text => text == ['<', '<']
  | _ => false

/-- The datum that a key stands for. -/
def keyDatum : Node → Except Flaw Data
  | .plain text => if text == ['='] then .ok (.text "=") else resolve text
  | .quoted text => .ok (.text text)
  | .list _ | .map _ => .error .collectionKey

mutual

/-- The datum that a node stands for. -/
def datum : Node → Except Flaw Data
  | .plain text => resolve text
  | .quoted text => .ok (.text text)
  | .list items => do return .list (← dataOf items)
  | .map entries => do
    let (merged, own) ← entriesOf entries
    return .map ((merged ++ own).foldl addEntry [])

def dataOf : List Node → Except Flaw (List Data)
  | [] => .ok []
  | node :: rest => do
    let d ← datum node
    return d :: (← dataOf rest)

/-- The entries of a mapping: those that it takes from others, and its own. -/
def entriesOf : List (Node × Node) → Except Flaw (List (Data × Data) × List (Data × Data))
  | [] => .ok ([], [])
  | (key, value) :: rest =>
    if isMergeKey key then do
      let taken ← mergedEntries (← datum value)
      let (merged, own) ← entriesOf rest
      return (taken ++ merged, own)
    else do
      let k ← keyDatum key
      let v ← datum value
      let (merged, own) ← entriesOf rest
      return (merged, (k, v) :: own)

end

/-! ### Flaws -/

/-- The flaw of something that has one. -/
def flawOf : Except Flaw Data → Option Flaw
  | .error flaw => some flaw
  | .ok _ => none

/-- Rows of flaws beside others: in each row the first flaw. -/
def beside : List (Option Flaw) → List (Option Flaw) → List (Option Flaw)
  | [], others => others
  | rows, [] => rows
  | flaw :: rows, other :: others => flaw.or other :: beside rows others

/-- Why a node cannot stand under a merge key. -/
def mergeFlaw? : Node → Option Flaw
  | .map _ => none
  | .list items =>
    if items.all fun | .map _ => true | _ => false then none else some .noMerge
  | _ => some .noMerge

/-- How far below a node under a merge key the entries are that it gives. -/
def mergeDepth : Node → Nat
  | .list _ => 2
  | _ => 1

mutual

/-- The first flaw in each row of a node. It is the first row itself, what a collection holds is in
    the row below it, and merged entries are in the row of those they are merged with. -/
def flaws : Node → List (Option Flaw)
  | .plain text => [flawOf (resolve text)]
  | .quoted _ => []
  | .list items => none :: flawsOf items
  | .map entries =>
    let (merged, own) := entryFlaws entries
    none :: beside merged own

def flawsOf : List Node → List (Option Flaw)
  | [] => []
  | node :: rest => beside (flaws node) (flawsOf rest)

/-- The flaws of the entries that a mapping takes from others, and those of its own. -/
def entryFlaws : List (Node × Node) → List (Option Flaw) × List (Option Flaw)
  | [] => ([], [])
  | (key, value) :: rest =>
    let (merged, own) := entryFlaws rest
    if isMergeKey key then
      (beside [mergeFlaw? value] (beside ((flaws value).drop (mergeDepth value)) merged), own)
    else (merged, beside [flawOf (keyDatum key)] (beside (flaws value) own))

end

/-- The flaw of a node that counts: that of the highest row with one. -/
def firstFlaw? (node : Node) : Option Flaw := (flaws node).findSome? id

/-- The datum that a document writes; an empty document is null. A text that is no document has the
    flaw for which it is none, whatever is wrong with its nodes. -/
def read (text : List Char) : Except Flaw Data := do
  let node ← readNode text
  match firstFlaw? node with
  | some flaw => .error flaw
  | none => datum node

end VisualNovel.Yaml

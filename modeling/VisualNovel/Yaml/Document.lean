import VisualNovel.Yaml.Scalar

/-!
Documents: nodes in brackets, whose layout is free, and nodes in blocks, whose layout says what
belongs to what. The lines of a collection in a block all begin in one column; what belongs to an
entry begins further right, with one exception: a list that is the value of a key may begin in
the column of the key.

The depth that every function takes bounds how far the functions call one another. It is computed
from the length of the text, and each call that goes deeper has read a character since the last.
-/

namespace VisualNovel.Yaml

/-- The longest text that may be a key, its blanks included. -/
def keyLimit : Nat := 1024

/-- Whether what was read from `s` to `t` may be a key: it is on one line, where columns count its
    characters, and not too long. -/
def mayBeKey (s t : Source) : Bool := s.line == t.line && t.column - s.column ≤ keyLimit

/-- The node where nothing is written. -/
def empty : Node := .plain []

/-! ### In brackets -/

mutual

/-- The node in brackets that begins here. -/
def flowNode (depth : Nat) (s : Source) : Except Flaw (Node × Source) :=
  match depth with
  | 0 => .error .tooDeep
  | depth + 1 =>
    if s.atEnd then .error .unclosed
    else
      match s.rest with
      | '[' :: _ => do
        let (items, t) ← flowItems depth [] (s.drop 1).skip
        return (.list items, t)
      | '\x7b' :: _ => do
        let (entries, t) ← flowEntries depth [] (s.drop 1).skip
        return (.map entries, t)
      | _ => scalar true 0 s

/-- A node in brackets, with the value of which it is the key, if it is one. -/
def flowPair (depth : Nat) (s : Source) : Except Flaw (Node × Option Node × Source) :=
  match depth with
  | 0 => .error .tooDeep
  | depth + 1 => do
    let (node, after) ← flowNode depth s
    let t := after.skip
    if t.rest.head? != some ':' then return (node, none, t)
    if !mayBeKey s t then .error .misplacedKey
    let v := (t.drop 1).skip
    match v.rest with
    | ',' :: _ | ']' :: _ | '\x7d' :: _ => return (node, some empty, v)
    | _ =>
      let (value, after) ← flowNode depth v
      return (node, some value, after.skip)

/-- The items of a list in brackets from here on. -/
def flowItems (depth : Nat) (done : List Node) (s : Source) : Except Flaw (List Node × Source) :=
  match depth with
  | 0 => .error .tooDeep
  | depth + 1 =>
    match s.rest with
    | ']' :: _ => .ok (done, s.drop 1)
    | _ => do
      let (node, value, t) ← flowPair depth s
      let item ←
        match value with
        | none => pure node
        | some v => pure (.map [(node, v)])
      match t.rest with
      | ',' :: _ => flowItems depth (done ++ [item]) (t.drop 1).skip
      | ']' :: _ => return (done ++ [item], t.drop 1)
      | _ => .error .noComma

/-- The entries of a mapping in brackets from here on. -/
def flowEntries (depth : Nat) (done : List (Node × Node)) (s : Source) :
    Except Flaw (List (Node × Node) × Source) :=
  match depth with
  | 0 => .error .tooDeep
  | depth + 1 =>
    match s.rest with
    | '\x7d' :: _ => .ok (done, s.drop 1)
    | _ => do
      let (node, value, t) ← flowPair depth s
      let entries := done ++ [(node, value.getD empty)]
      match t.rest with
      | ',' :: _ => flowEntries depth entries (t.drop 1).skip
      | '\x7d' :: _ => return (entries, t.drop 1)
      | _ => .error .noComma

end

/-! ### In blocks -/

/-- The node that begins here and needs no block: a scalar or a collection in brackets. A scalar
    on several lines keeps right of the column before `floor`. -/
def inlineNode (depth floor : Nat) (s : Source) : Except Flaw (Node × Source) :=
  match s.rest with
  | '[' :: _ | '\x7b' :: _ => flowNode depth s
  | _ => scalar false floor s

/-- The place after the spaces that begin here. -/
def Source.skipSpaces (s : Source) : Source := s.drop (s.rest.takeWhile (· == ' ')).length

mutual

/-- The node that begins here, and the next thing after it. What it is made of begins in the
    column `floor` or right of it; `keyAllowed` says whether it may be a mapping. -/
def blockNode (depth floor : Nat) (keyAllowed : Bool) (s : Source) : Except Flaw (Node × Source) :=
  match depth with
  | 0 => .error .tooDeep
  | depth + 1 =>
    if s.atEntry then
      if keyAllowed then do
        let (items, t) ← blockItems depth s.column [] s
        return (.list items, t)
      else .error .misplacedEntry
    else do
      let (node, after) ← inlineNode depth floor s
      let t := after.skipSpaces
      if s.line == t.line && t.atColon then
        if keyAllowed then
          let (entries, t) ← blockEntries depth s.column [] s
          return (.map entries, t)
        else .error .misplacedKey
      else return (node, after.skip)

/-- The value of an entry that begins in a column and on a line: the node at `s`, unless `s` is a
    line of a collection around the entry. -/
def blockValue (depth line column : Nat) (keyAllowed listAllowed : Bool) (s : Source) :
    Except Flaw (Node × Source) :=
  match depth with
  | 0 => .error .tooDeep
  | depth + 1 =>
    if s.atEnd then .ok (empty, s)
    else if s.line == line then blockNode depth (column + 1) keyAllowed s
    else if column < s.column then blockNode depth (column + 1) true s
    else if listAllowed && s.column == column && s.atEntry then do
      let (items, t) ← blockItems depth column [] s
      return (.list items, t)
    else .ok (empty, s)

/-- The items of a list whose dashes are in a column, from the dash here on. -/
def blockItems (depth column : Nat) (done : List Node) (s : Source) :
    Except Flaw (List Node × Source) :=
  match depth with
  | 0 => .error .tooDeep
  | depth + 1 => do
    let (item, t) ← blockValue depth s.line column true false (s.drop 1).skip
    if t.atEnd || t.column < column then return (done ++ [item], t)
    else if column < t.column then .error .badIndentation
    else if t.atEntry then blockItems depth column (done ++ [item]) t
    else return (done ++ [item], t)

/-- The entries of a mapping whose keys are in a column, from the key here on. -/
def blockEntries (depth column : Nat) (done : List (Node × Node)) (s : Source) :
    Except Flaw (List (Node × Node) × Source) :=
  match depth with
  | 0 => .error .tooDeep
  | depth + 1 =>
    if s.atEntry then .error .misplacedEntry
    else do
      let (key, after) ← inlineNode depth (column + 1) s
      let t := after.skipSpaces
      if !t.atColon then .error .noKey
      if !mayBeKey s t then .error .misplacedKey
      let (value, t) ← blockValue depth t.line column false true (t.drop 1).skip
      let entries := done ++ [(key, value)]
      if t.atEnd || t.column < column then return (entries, t)
      else if column < t.column then .error .badIndentation
      else blockEntries depth column entries t

end

/-! ### Documents -/

/-- Whether nothing but marks after the document is left. -/
def onlyEndMarks (depth : Nat) (s : Source) : Bool :=
  match depth with
  | 0 => false
  | depth + 1 =>
    match s.rest with
    | [] => true
    | '.' :: '.' :: '.' :: _ => s.atEnd && onlyEndMarks depth (s.drop 3).skip
    | _ => false

/-- The node that a document writes. -/
def readNode (text : List Char) : Except Flaw Node := do
  if !text.all isPrintable then .error .unprintable
  let body := if text.head? == some '\ufeff' then text.drop 1 else text
  let depth := 4 * body.length + 8
  let start := Source.skip ⟨body, 0, 0⟩
  let (node, rest) ←
    match start.rest with
    | [] => pure (empty, start)
    | '-' :: '-' :: '-' :: _ =>
      if start.atEnd then do
        let s := (start.drop 3).skip
        if s.atEnd then pure (empty, s)
        else blockNode depth 0 (s.line != start.line) s
      else blockNode depth 0 true start
    | _ => if start.atEnd then .error .noNode else blockNode depth 0 true start
  if onlyEndMarks depth rest then return node else .error .trailing

end VisualNovel.Yaml

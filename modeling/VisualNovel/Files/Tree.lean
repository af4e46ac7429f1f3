import VisualNovel.Files.Path
import VisualNovel.Table
import VisualNovel.Text.Utf8

/-!
The files that the program can see: a tree of directories and files below the current directory.
Of what is outside, only the directories above it are there, which two dots lead to, and which
nothing can be named in.
-/

namespace VisualNovel

inductive FileNode where
  | directory
  | file (bytes : List UInt8)
  deriving DecidableEq

/-- Why a path cannot be read. -/
inductive FileError where
  | noEntry
  | isDirectory
  | notDirectory
  | nameTooLong
  deriving Repr, DecidableEq

def FileError.message : FileError → String
  | .noEntry => "No such file or directory"
  | .isDirectory => "Is a directory"
  | .notDirectory => "Not a directory"
  | .nameTooLong => "File name too long"

/-- Files and directories by the parts of their paths; the current directory has none. -/
structure FileTree where
  entries : Table (List String) FileNode := []

namespace FileTree

def find? (t : FileTree) (parts : List String) : Option FileNode :=
  if parts.isEmpty then some .directory
  else t.entries.get? parts

/-- The tree with a node at a place. -/
def put (t : FileTree) (parts : List String) (node : FileNode) : FileTree :=
  ⟨t.entries.put parts node⟩

/-- The longest part of a path, in bytes. -/
def partLimit : Nat := 255

/-- The longest path, in bytes. -/
def pathLimit : Nat := 4095

/-- Where a walk stands: in the current directory or below it, or in a directory outside. -/
inductive Place where
  | inside (parts : List String)
  | outside
  deriving DecidableEq

/-- The walk along the parts of a path. Each step needs a directory to stand in. -/
def walk (t : FileTree) (stand : Place) : List String → Except FileError Place
  | [] => .ok stand
  | part :: rest =>
    match stand with
    | .outside =>
      if part == ".." then walk t .outside rest
      else .error (if partLimit < part.utf8ByteSize then .nameTooLong else .noEntry)
    | .inside here =>
      match t.find? here with
      | none => .error .noEntry
      | some (.file _) => .error .notDirectory
      | some .directory =>
        if part == ".." then
          walk t (if here.isEmpty then .outside else .inside here.dropLast) rest
        else if partLimit < part.utf8ByteSize then .error .nameTooLong
        else
          match t.find? (here ++ [part]) with
          | none => .error .noEntry
          | some _ => walk t (.inside (here ++ [part])) rest

/-- What stands at a path. -/
def node? (t : FileTree) (p : Path) : Except FileError FileNode := do
  if pathLimit < p.toString.utf8ByteSize then .error .nameTooLong
  match ← t.walk (if p.isAbsolute then .outside else .inside []) p.parts with
  | .outside => return .directory
  | .inside parts =>
    match t.find? parts with
    | some node => return node
    | none => .error .noEntry

/-- The bytes of a file. -/
def read (t : FileTree) (p : Path) : Except FileError (List UInt8) := do
  match ← t.node? p with
  | .directory => .error .isDirectory
  | .file bytes => return bytes

def isDirectory (t : FileTree) (p : Path) : Bool :=
  match t.node? p with
  | .ok .directory => true
  | _ => false

def isFile (t : FileTree) (p : Path) : Bool :=
  match t.node? p with
  | .ok (.file _) => true
  | _ => false

/-- The names in a directory, in no particular order. -/
def names (t : FileTree) (p : Path) : List String :=
  match t.walk (.inside []) p.parts with
  | .ok (.inside here) =>
    t.entries.filterMap fun (key, _) =>
      if key.length = here.length + 1 ∧ key.dropLast = here then key.getLast? else none
  | _ => []

/-- The place that parts lead to if every directory on the way is there. -/
def place (parts : List String) : List String :=
  parts.foldl (fun here part => if part == ".." then here.dropLast else here ++ [part]) []

/-- The tree with the directories on the way to a path. -/
def makeParents (t : FileTree) (parts : List String) : FileTree :=
  (List.range (parts.length - 1)).foldl
    (fun t n =>
      let above := place (parts.take (n + 1))
      if (t.find? above).isSome then t else t.put above .directory)
    t

/-- The tree with a node at a path, and the directories on the way there. -/
def write (t : FileTree) (p : Path) (node : FileNode) : FileTree :=
  (t.makeParents p.parts).put (place p.parts) node

/-- The tree without the entry at a path. -/
def delete (t : FileTree) (p : Path) : FileTree :=
  ⟨t.entries.erase (place p.parts)⟩

end FileTree

end VisualNovel

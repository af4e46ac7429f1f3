import VisualNovel.Files.Tree
import VisualNovel.Script.Compile
import VisualNovel.Table

/-!
The repertoire: the scripts that can be played, by chapter and act. A script is compiled from its
file when it is first asked for and kept from then on, until it is dropped or replaced.
-/

namespace VisualNovel

/-- A script's chapter and act. -/
structure ScriptId where
  chapter : String
  act : String
  deriving Repr, DecidableEq

namespace ScriptId

def toString (id : ScriptId) : String := id.chapter ++ "/" ++ id.act

end ScriptId

/-- Why a script file cannot be compiled. -/
inductive LoadError where
  | unreadable (path : String) (e : FileError)
  | notUtf8 (path : String) (e : Text.Utf8Error)
  /-- The path holds a character that no file name can hold. -/
  | noPath
  | compile (e : Script.CompileError)
  deriving Repr, DecidableEq

/-- The message about a file that cannot be read as text, with its path; no other failure has
    one. -/
def LoadError.fileMessage? : LoadError → Option (String × String)
  | .unreadable path e => some (path, path ++ ": " ++ e.message)
  | .notUtf8 path e =>
    some (path, path ++ ": not UTF-8 text (" ++ e.flaw.message ++ s!" at byte {e.start})")
  | _ => none

/-- The script in a file; it is named after the file. -/
def loadScriptFile (files : FileTree) (path : Path) : Except LoadError Script :=
  let name := path.toString
  if !path.isNameable then .error .noPath
  else
    match files.read path with
    | .error e => .error (.unreadable name e)
    | .ok bytes =>
      match Text.decodeUtf8 bytes with
      | .error e => .error (.notUtf8 name e)
      | .ok text => (Script.compile (String.ofList text) (some name)).mapError .compile

/-- A script on the shelf, with a number that tells it from every other one put there. -/
structure Shelved where
  script : Script
  number : Nat

/-- Where script files are, and the scripts on the shelf. -/
structure Repertoire where
  root : Path
  extension : String := ".sabi"
  shelf : Table ScriptId Shelved := []
  nextNumber : Nat := 0

namespace Repertoire

def pathOf (r : Repertoire) (id : ScriptId) : Path :=
  r.root / Path.ofString id.chapter / Path.ofString (id.act ++ r.extension)

def shelved? (r : Repertoire) (id : ScriptId) : Option Shelved := r.shelf.get? id

/-- The repertoire with a script put on the shelf, in place of one with the same name. -/
def shelve (r : Repertoire) (id : ScriptId) (script : Script) : Repertoire :=
  { r with
    shelf := r.shelf.put id ⟨script, r.nextNumber⟩
    nextNumber := r.nextNumber + 1 }

/-- The script of a name: the one on the shelf, or else the one in its file, which is then
    shelved. -/
def load (r : Repertoire) (files : FileTree) (id : ScriptId) :
    Except LoadError (Shelved × Repertoire) :=
  match r.shelved? id with
  | some s => .ok (s, r)
  | none =>
    match loadScriptFile files (r.pathOf id) with
    | .error e => .error e
    | .ok script => .ok (⟨script, r.nextNumber⟩, r.shelve id script)

/-- The repertoire with a script that was compiled elsewhere; it has to be valid. -/
def register (r : Repertoire) (id : ScriptId) (script : Script) :
    Except Script.CompileError Repertoire := do
  script.validate
  return r.shelve id script

/-- The repertoire without the script of a name. -/
def drop (r : Repertoire) (id : ScriptId) : Repertoire :=
  { r with shelf := r.shelf.erase id }

/-- The repertoire with an empty shelf. -/
def dropAll (r : Repertoire) : Repertoire := { r with shelf := [] }

end Repertoire

end VisualNovel

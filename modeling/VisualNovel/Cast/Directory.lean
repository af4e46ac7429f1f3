import VisualNovel.Cast.Cast
import VisualNovel.Yaml.File

/-!
The cast of a directory: a file for each character in its `characters`, and one for each animation
in its `animations`.
-/

namespace VisualNovel

/-- The entries of the mapping in a definition file. -/
def readDefinition (files : FileTree) (path : Path) :
    Except DefinitionError (List (Data × Data)) :=
  let place := path.toString
  match Yaml.readFile files path with
  | .ok (.map entries) => .ok entries
  | .ok _ => .error (.flawed place .notMapping)
  | .error .noPath => .error .noPath
  | .error (.unreadable e) => .error (.flawed place (.unreadable e))
  | .error (.notUtf8 _) => .error .notUtf8
  | .error (.malformed (.scalar .tooLarge)) => .error .tooLarge
  | .error (.malformed (.scalar _)) => .error .unrealValue
  | .error (.malformed _) => .error (.flawed place .notStructured)

/-- The character that a file defines. -/
def Character.ofFile (files : FileTree) (path : Path) : Except DefinitionError Character := do
  ofEntries path.toString (← readDefinition files path)

/-- The animation that a file defines. -/
def SpriteSheet.ofFile (files : FileTree) (path : Path) : Except DefinitionError SpriteSheet := do
  ofEntries path.toString (← readDefinition files path)

namespace Cast

/-- The suffixes of definition files, in any case. No letter outside ASCII has one of these letters
    as its small form. -/
def definitionSuffixes : List String := [".yaml", ".yml", ".json"]

/-- The definition files of a directory, in the order of their names; none if there is no such
    directory. -/
def definitionFiles (files : FileTree) (folder : Path) : Except DefinitionError (List Path) :=
  match files.node? folder with
  | .error .nameTooLong => if folder.isNameable then .error .longPath else .ok []
  | .ok .directory =>
    let names := (files.names folder).mergeSort fun a b => !decide (b < a)
    .ok ((names.map fun name => folder / ⟨"", [name]⟩).filter fun path =>
      files.isFile path && definitionSuffixes.contains path.suffix.toLower)
  | _ => .ok []

/-- The cast that the definition files of a directory make up. The first file that cannot be used
    ends it. -/
def ofDirectory (files : FileTree) (root : Path) : Except DefinitionError Cast := do
  let characters ← (← definitionFiles files (root / ⟨"", ["characters"]⟩)).foldlM
    (fun cast path => do cast.addCharacter (← Character.ofFile files path) path.toString) {}
  (← definitionFiles files (root / ⟨"", ["animations"]⟩)).foldlM
    (fun cast path => do cast.addAnimation (← SpriteSheet.ofFile files path) path.toString)
    characters

end Cast

end VisualNovel

import VisualNovel.Files.Tree
import VisualNovel.Yaml.Meaning

/-!
Documents in files. A file is UTF-8 text in which a carriage return, alone or before a line feed,
ends a line too.
-/

namespace VisualNovel.Yaml

/-- Why no document can be had from a path. -/
inductive FileFlaw where
  /-- The path holds a character that no file name can hold. -/
  | noPath
  | unreadable (e : FileError)
  | notUtf8 (e : Text.Utf8Error)
  | malformed (flaw : Flaw)
  deriving Repr, DecidableEq

/-- The text with a line feed, and nothing else, at the end of each line. -/
def unifyLineEnds : List Char → List Char
  | [] => []
  | '\r' :: '\n' :: rest => '\n' :: unifyLineEnds rest
  | c :: rest => (if c == '\r' then '\n' else c) :: unifyLineEnds rest

/-- The datum in a file. -/
def readFile (files : FileTree) (path : Path) : Except FileFlaw Data :=
  if !path.isNameable then .error .noPath
  else
    match files.read path with
    | .error e => .error (.unreadable e)
    | .ok bytes =>
      match Text.decodeUtf8 bytes with
      | .error e => .error (.notUtf8 e)
      | .ok text => (read (unifyLineEnds text)).mapError .malformed

end VisualNovel.Yaml

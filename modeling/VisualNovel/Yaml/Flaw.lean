/-!
What makes a text no YAML document, or one with a feature that is not read: tags, anchors, block
scalars, directives and explicit keys are not. A scalar can also be at fault by itself, where the
document is well formed.
-/

namespace VisualNovel.Yaml

/-- How a scalar has the form of a value or of a character that there is none of. -/
inductive Fault where
  /-- A day that the calendar lacks, or a time that the clock lacks. -/
  | unrealTime
  /-- A whole number without digits after the mark of its base. -/
  | noDigits
  /-- A whole number of more decimal digits than are read. -/
  | tooManyDigits
  /-- The code of a character that there is none of. -/
  | noCharacter
  /-- The code of a character that has more than 31 bits, or sixties beyond every double. -/
  | tooLarge
  deriving Repr, DecidableEq

inductive Flaw where
  /-- A character that no document may hold. -/
  | unprintable
  /-- Something stands where a node is expected and begins none. -/
  | noNode
  /-- The text ends, or the document does, inside a quoted text. -/
  | unclosed
  | badEscape
  /-- A list entry where none may begin. -/
  | misplacedEntry
  /-- A key where none may stand: after another key on its line, on several lines, or too long. -/
  | misplacedKey
  /-- A line of a mapping that has no key. -/
  | noKey
  /-- A line that is indented as no collection around it is. -/
  | badIndentation
  /-- A list or a mapping as the key of a mapping. -/
  | collectionKey
  /-- Entries of a bracketed collection without a comma between them. -/
  | noComma
  /-- A merge key or a default key that is not a key. -/
  | specialKey
  /-- Something other than mappings under a merge key. -/
  | noMerge
  /-- More text after the document. -/
  | trailing
  /-- More nested collections than there are characters. -/
  | tooDeep
  | scalar (fault : Fault)
  deriving Repr, DecidableEq

end VisualNovel.Yaml

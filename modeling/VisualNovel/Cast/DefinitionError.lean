import VisualNovel.Files.Tree

/-!
What can be wrong with the definition of a character or of an animation. Most of it is a breach of
the format, and is told to the user together with the place of the definition.
-/

namespace VisualNovel

/-- A breach of the format of definition files. -/
inductive DefinitionFlaw where
  | notText (key : String)
  | noOutfits
  | noEmotions (outfit : String)
  | noSprite (outfit emotion : String)
  | unknownOutfit (outfit : String)
  | missingEmotion (emotion outfit : String)
  | notNumber (key : String)
  | notWhole (key : String)
  | notPositive (key : String)
  | unreadable (e : FileError)
  | notStructured
  | notMapping
  | definedTwice (kind name : String)
  deriving Repr, DecidableEq

def DefinitionFlaw.message : DefinitionFlaw → String
  | .notText key => s!"'{key}' must be a non-empty string"
  | .noOutfits => "'outfits' must be a non-empty mapping"
  | .noEmotions outfit => s!"outfit '{outfit}' must map emotions to sprites"
  | .noSprite outfit emotion => s!"sprite for '{outfit}/{emotion}' must be a path"
  | .unknownOutfit outfit => s!"default outfit '{outfit}' is not defined"
  | .missingEmotion emotion outfit =>
    s!"default emotion '{emotion}' missing from outfit '{outfit}'"
  | .notNumber key => s!"'{key}' must be a number"
  | .notWhole key => s!"'{key}' must be a whole number"
  | .notPositive key => s!"'{key}' must be positive"
  | .unreadable e => e.message
  | .notStructured => "not valid YAML/JSON"
  | .notMapping => "top level must be a mapping"
  | .definedTwice kind name => s!"{kind} '{name}' defined twice"

/-- Why a definition cannot be used. -/
inductive DefinitionError where
  /-- The definition at a place breaches the format. -/
  | flawed (place : String) (flaw : DefinitionFlaw)
  /-- A number beyond every double, or the code of a character that is too large. -/
  | tooLarge
  /-- A file that is not UTF-8. -/
  | notUtf8
  /-- A path that holds a character that no file name can hold. -/
  | noPath
  /-- A directory whose path is too long to look for it. -/
  | longPath
  /-- A day, a time, a number or a character that there is none of, or a number without a text. -/
  | unrealValue
  deriving Repr, DecidableEq

/-- The message about a breach of the format; no other failure has one. -/
def DefinitionError.message? : DefinitionError → Option String
  | .flawed place flaw => some (place ++ ": " ++ flaw.message)
  | _ => none

end VisualNovel

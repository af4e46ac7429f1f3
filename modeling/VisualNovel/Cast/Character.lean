import VisualNovel.Cast.DefinitionError
import VisualNovel.Data
import VisualNovel.Table
import VisualNovel.Text.Words

/-!
Characters: their outfits, and in each outfit a sprite for each emotion. One outfit and one of its
emotions are what a character wears and shows unless the script says otherwise.
-/

namespace VisualNovel

/-- A character: sprites by outfit and emotion. -/
structure Character where
  name : String
  outfits : Table String (Table String String)
  outfit : String
  emotion : String
  description : String := ""
  deriving Repr, DecidableEq

namespace Character

/-- A choice, unless it is absent or empty. -/
def orDefault (choice : Option String) (default : String) : String :=
  match choice with
  | some s => if s.isEmpty then default else s
  | none => default

/-- The sprite of an emotion in an outfit; what is left out is the default. -/
def sprite? (c : Character) (emotion outfit : Option String) : Option String :=
  (c.outfits.get? (orDefault outfit c.outfit)).bind fun emotions =>
    emotions.get? (orDefault emotion c.emotion)

def hasEmotion (c : Character) (emotion outfit : Option String) : Bool :=
  (c.sprite? emotion outfit).isSome

end Character

/-! ### Reading definitions -/

/-- The entries of a mapping. -/
def Data.entries? : Data → Option (List (Data × Data))
  | .map entries => some entries
  | _ => none

/-- A text without the blanks at its ends, unless nothing is left. -/
def trimmed? (s : String) : Option String :=
  let t := Text.trim s.toList
  if t.isEmpty then none else some (String.ofList t)

/-- The text of a datum that is a text of more than blanks. -/
def Data.trimmed? : Data → Option String
  | .text s => VisualNovel.trimmed? s
  | _ => none

/-- The value of a key that has to hold a text. -/
def requireText (place key : String) (entries : List (Data × Data)) :
    Except DefinitionError String :=
  match (Data.get? key entries).bind Data.trimmed? with
  | some s => .ok s
  | none => .error (.flawed place (.notText key))

namespace Character

/-- The text that a datum stands for as a name or as a description. -/
def textOf (d : Data) : Except DefinitionError String :=
  match d.display? with
  | some s => .ok s
  | none => .error .unrealValue

/-- The sprites of one outfit. -/
def readEmotions (place outfit : String) (entries : List (Data × Data)) :
    Except DefinitionError (Table String String) :=
  entries.foldlM
    (fun table (key, value) => do
      let emotion ← textOf key
      match value.trimmed? with
      | some sprite => return table.put emotion sprite
      | none => .error (.flawed place (.noSprite outfit emotion)))
    []

/-- The outfits of a definition. -/
def readOutfits (place : String) (entries : List (Data × Data)) :
    Except DefinitionError (Table String (Table String String)) :=
  entries.foldlM
    (fun table (key, value) => do
      let outfit ← textOf key
      match value.entries? with
      | some (e :: es) => return table.put outfit (← readEmotions place outfit (e :: es))
      | _ => .error (.flawed place (.noEmotions outfit)))
    []

/-- The text of the value of a key, unless that is left out or counts as not given. -/
def choice? (entries : List (Data × Data)) (key : String) :
    Except DefinitionError (Option String) :=
  match (Data.get? key entries).filter Data.isTruthy with
  | some d => return some (← textOf d)
  | none => return none

/-- The first name of a table. -/
def firstName {β : Type} (t : Table String β) : String := (t.head?.map (·.1)).getD ""

/-- The character that a mapping defines. -/
def ofEntries (place : String) (entries : List (Data × Data)) :
    Except DefinitionError Character := do
  let name ← requireText place "name" entries
  let outfits ←
    match (Data.get? "outfits" entries).bind Data.entries? with
    | some (e :: es) => readOutfits place (e :: es)
    | _ => .error (.flawed place .noOutfits)
  let outfit := (← choice? entries "outfit").getD (firstName outfits)
  match outfits.get? outfit with
  | none => .error (.flawed place (.unknownOutfit outfit))
  | some emotions =>
    let emotion := (← choice? entries "emotion").getD (firstName emotions)
    if !emotions.has emotion then .error (.flawed place (.missingEmotion emotion outfit))
    let description := (← choice? entries "description").getD ""
    return { name, outfits, outfit, emotion, description }

end Character

end VisualNovel

import VisualNovel.Cast.SpriteSheet

/-!
The cast: the characters and animations that a script can call on stage, by name.
-/

namespace VisualNovel

structure Cast where
  characters : Table String Character := []
  animations : Table String SpriteSheet := []

namespace Cast

/-- The cast with a further character; `place` says where it was defined. -/
def addCharacter (cast : Cast) (c : Character) (place : String := "") :
    Except DefinitionError Cast :=
  if cast.characters.has c.name then
    .error (.flawed (Character.orDefault (some place) c.name) (.definedTwice "character" c.name))
  else .ok { cast with characters := cast.characters.put c.name c }

/-- The cast with a further animation; `place` says where it was defined. -/
def addAnimation (cast : Cast) (s : SpriteSheet) (place : String := "") :
    Except DefinitionError Cast :=
  if cast.animations.has s.name then
    .error (.flawed (Character.orDefault (some place) s.name) (.definedTwice "animation" s.name))
  else .ok { cast with animations := cast.animations.put s.name s }

end Cast

end VisualNovel

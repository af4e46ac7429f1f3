import VisualNovel.Script.Basic
import VisualNovel.Script.Mistake

/-!
What every script in use satisfies beyond its grammar: it has a scene, and each jump goes to one of
its own scenes.
-/

namespace VisualNovel

/-- What a direction that was put together by hand can lack when it is used. -/
inductive ParamError where
  /-- A parameter that the use needs is absent. -/
  | missing (key : String)
  /-- Fewer coordinates than the use needs. -/
  | tooFewCoordinates
  /-- Not exactly two coordinates. -/
  | notTwoCoordinates
  /-- Coordinates stand where a named place is needed. -/
  | notAPlace
  /-- A named place stands where coordinates are needed. -/
  | notCoordinates
  /-- No phrase says what the direction does. -/
  | noPhrase
  /-- A text that has to be written is blank. -/
  | noText
  /-- The speaker is a character without a name. -/
  | noSpeaker
  deriving Repr, DecidableEq

/-- The value of a parameter that has to be there. -/
def need {α : Type} (key : String) : Option α → Except ParamError α
  | some a => .ok a
  | none => .error (.missing key)

namespace Script

/-- Why a text is no script. Only a script put together by hand can be incomplete. -/
inductive CompileError where
  | malformed (e : SyntaxError)
  | unsound (e : StructuralError)
  | incomplete (e : ParamError)
  deriving Repr, DecidableEq

/-- The name that messages give to a script, unless it has none. -/
def origin (s : Script) : Option String := if s.name.isEmpty then none else some s.name

/-- The first flaw of one directive of a scene. -/
def checkDirective (s : Script) (scene : String) (d : Numbered) : Except CompileError Unit :=
  match d.directive with
  | .stage direction =>
    if direction.isJump then
      match direction.params.name with
      | none => .error (.incomplete (.missing "name"))
      | some target =>
        if target.any s.hasScene then .ok ()
        else .error (.unsound ⟨.unknownScene scene (target.getD "None"), s.origin, d.line⟩)
    else .ok ()
  | _ => .ok ()

/-- A script has a scene and jumps only within itself; the first breach is reported. -/
def validate (s : Script) : Except CompileError Unit :=
  if s.scenes.isEmpty then .error (.unsound ⟨.noScenes, s.origin, 0⟩)
  else s.scenes.forM fun scene => scene.directives.forM (s.checkDirective scene.name)

end Script

end VisualNovel

import VisualNovel.Number.Shortest
import VisualNovel.Script.Quoted
import VisualNovel.Script.Validation

/-!
Scripts as text. Each directive is written as a line, scenes are separated by a blank one, and
what `compile` accepted is written so that it compiles to the same content again.
-/

namespace VisualNovel

/-- A text as the one literal of a quoted expression. -/
def quotedText (text : String) : String := Expression.source [.literal text]

/-- A name in a phrase; a target without one is written `None`. -/
def Target.nameText (t : Target) : String := t.name.getD "None"

/-- A text that has to be written, between quotes. -/
def quotedGiven (key : String) (given : GivenText) : Except ParamError String := do
  match ← need key given with
  | some text => return quotedText text
  | none => .error .noText

/-- The named place of a placement. -/
def Placement.place? : Placement → Except ParamError Position
  | .place p => .ok p
  | .coords _ => .error .notAPlace

/-- The two first coordinates of a placement. -/
def Placement.firstTwo? : Placement → Except ParamError (Float × Float)
  | .coords (x :: y :: _) => .ok (x, y)
  | .coords _ => .error .tooFewCoordinates
  | .place _ => .error .notCoordinates

/-- The coordinates of a placement that has exactly two. -/
def Placement.pair? : Placement → Except ParamError (Float × Float)
  | .coords [x, y] => .ok (x, y)
  | .coords _ => .error .notTwoCoordinates
  | .place _ => .error .notCoordinates

namespace Params

/-- The options of an actor that comes on stage, each with a space before it. -/
def actorOptions (p : Params) : Except ParamError String := do
  let position ← match p.position with
    | some placement => do pure s!" at {Vocabulary.word (← placement.place?)}"
    | none => pure ""
  let facing := match p.facing with
    | some f => " looking " ++ Vocabulary.word f
    | none => ""
  let emotion := match p.emotion with
    | some e => " as " ++ e.getD "None"
    | none => ""
  return position ++ facing ++ emotion

/-- The options of an animation that appears, each with a space before it. -/
def animationOptions (p : Params) : Except ParamError String := do
  let position ← match p.position with
    | some placement => do
      let (x, y) ← placement.firstTwo?
      pure (" at " ++ Number.shortestOrWhole x ++ " " ++ Number.shortestOrWhole y)
    | none => pure ""
  let scale := match p.scale with
    | some x => " scale " ++ Number.shortestOrWhole x
    | none => ""
  let layer := match p.layer with
    | some n => " layer " ++ toString n
    | none => ""
  return position ++ scale ++ layer

end Params

/-- The phrase of a direction, in parentheses. -/
def StageDirection.written (d : StageDirection) : Except ParamError String := do
  let p := d.params
  let inParens (s : String) : String := "(" ++ s ++ ")"
  let fades (head options : String) : Except ParamError String := do
    let direction ← need "direction" p.direction
    return inParens (head ++ " fades " ++ Vocabulary.word direction ++ options)
  let looks (head : String) : Except ParamError String := do
    let facing ← need "facing" p.facing
    return inParens (head ++ " looks " ++ Vocabulary.word facing)
  match d.target.kind with
  | .scene => return inParens ("Scene " ++ (← quotedGiven "name" p.name) ++ " begins")
  | .background => return inParens ("Background changes to " ++ (← quotedGiven "id" p.id))
  | .gui =>
    let mode := match p.scaling with
      | some scaling => " " ++ Vocabulary.word scaling
      | none => ""
    let panel ← need "element" p.element
    let id ← quotedGiven "id" p.id
    return inParens ("GUI " ++ Vocabulary.word panel ++ " changes to " ++ id ++ mode)
  | .animation =>
    let head := "Animation " ++ d.target.nameText
    match d.action with
    | .appear => return inParens (head ++ " appears" ++ (← p.animationOptions))
    | .move =>
      let (x, y) ← (← need "position" p.position).pair?
      return inParens (head ++ " moves to " ++ Number.shortestOrWhole x ++ " " ++
        Number.shortestOrWhole y)
    | .fade => fades head ""
    | .look => looks head
    | _ => .error .noPhrase
  | .actor =>
    let head := d.target.nameText
    match d.action with
    | .appear => return inParens (head ++ " appears" ++ (← p.actorOptions))
    | .disappear => return inParens (head ++ " disappears")
    | .move =>
      let position ← (← need "position" p.position).place?
      return inParens (head ++ " moves to " ++ Vocabulary.word position)
    | .fade => do
      let options ← p.actorOptions
      fades head options
    | .look => looks head
    | _ => .error .noPhrase

/-- The name that a speaker has in a script. -/
def Speaker.label (s : Speaker) : String :=
  match s.kind with
  | .character => s.name.getD ""
  | kind => Vocabulary.word kind

/-- A line of dialogue as it is written. -/
def Dialogue.written (d : Dialogue) : String :=
  let emotion := match d.emotion with
    | some e => if e.isEmpty then "" else " (" ++ e ++ ")"
    | none => ""
  d.speaker.label ++ ":" ++ emotion ++ " " ++ d.text.source

/-- A log entry as it is written. -/
def writtenLog (message : Expression) : String := "\x7blog " ++ message.source ++ "\x7d"

/-- Whether there is something to write for a speaker. -/
def Speaker.isNamed (s : Speaker) : Bool := s.kind != .character || s.name.isSome

/-- A directive as it is written. -/
def Directive.written : Directive → Except ParamError String
  | .dialogue d => if d.speaker.isNamed then .ok d.written else .error .noSpeaker
  | .log message => .ok (writtenLog message)
  | .stage d => d.written

namespace Script

/-- A scene as it is written, without the last line end. -/
def sceneText (indent : String) (scene : Scene) : Except ParamError String := do
  let body ← scene.directives.mapM fun d => return indent ++ (← d.directive.written)
  return String.intercalate "\n" (("SCENE " ++ scene.name) :: body ++ ["CURTAIN"])

/-- The canonical text of a script. -/
def written (s : Script) (indent : String := "    ") : Except ParamError String := do
  let blocks ← s.scenes.mapM (sceneText indent)
  return String.intercalate "\n\n" blocks ++ "\n"

end Script

end VisualNovel

import VisualNovel.Data
import VisualNovel.Table
import VisualNovel.Script.Expression

/-!
The text of an expression under the variables of the story. Evaluation always succeeds: a variable
that is not defined contributes nothing and is reported.
-/

namespace VisualNovel

/-- Conditions that the story survives. They are recorded, in the order in which they arise. -/
inductive Warning where
  /-- A variable without a value was used. -/
  | undefinedVariable (name : String)
  /-- A subsystem could not act on a command. -/
  | unresolved (command : Int) (reason : String)
  /-- The player asked to continue when nothing waited for that; `situation` describes what the
      story was doing. -/
  | ignoredAdvance (situation : String)
  /-- A command was reported complete that the story did not wait for. -/
  | ignoredCompletion (command : Int) (situation : String)
  deriving Repr, DecidableEq

namespace Warning

/-- The story missed something, as opposed to being signalled out of turn. -/
def isResolution : Warning → Bool
  | .undefinedVariable _ => true
  | .unresolved _ _ => true
  | _ => false

def message : Warning → String
  | .undefinedVariable name => s!"variable '{name}' is not defined"
  | .unresolved command reason => s!"command #{command}: {reason}"
  | .ignoredAdvance situation => s!"advance() ignored while {situation}"
  | .ignoredCompletion command situation =>
    s!"effect_completed(#{command}) ignored while {situation}"

end Warning

/-- The variables of a story by name. A null value is no value. -/
abbrev Variables := Table String Data

/-- The text of a variable that has a value. -/
def Variables.text? (vars : Variables) (name : String) : Option String :=
  match vars.get? name with
  | some .null => none
  | some value => some value.display
  | none => none

/-- The text that a segment contributes, and what is to report about it. -/
def Segment.evaluate (vars : Variables) : Segment → String × List Warning
  | .literal text => (text, [])
  | .variable name =>
    match Variables.text? vars name with
    | some text => (text, [])
    | none => ("", [.undefinedVariable name])

/-- The text of an expression, segment by segment, with the undefined variables in their order. -/
def Expression.evaluate (vars : Variables) (e : Expression) : String × List Warning :=
  let parts := e.map (Segment.evaluate vars)
  (String.join (parts.map (·.1)), parts.flatMap (·.2))

end VisualNovel

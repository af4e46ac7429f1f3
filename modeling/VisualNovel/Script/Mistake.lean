import VisualNovel.Text.Quotation
import VisualNovel.Text.Words

/-!
What can be wrong with a script: a mistake in a line, found at a place, or a script that refers
to something it does not have. A mistake is found as a `Flaw`, which knows only the rest of the
line from the mistake on; `Line.locate` turns it into line, column and byte offset.
-/

namespace VisualNovel.Script

/-- The mistakes a line can hold. -/
inductive Mistake where
  | unknownEscape
  | unterminatedReference
  | badVariableName
  | unmatchedBrace
  | unterminatedText
  | expectedText
  | missingCurtainBeforeScene (scene : String)
  | expectedSceneLine
  | missingCurtain (scene : String)
  | noScenes
  | trailingText
  | unrecognizedLine
  | unterminatedEmotion
  | badEmotionName
  | expectedLog
  | unclosedLog
  | unterminatedDirection
  | unexpectedCharacter
  | emptyDirection
  /-- A part of a phrase, named by what it is for, is absent or of another kind. -/
  | expected (what : String)
  /-- One of these words is absent. -/
  | expectedWord (words : List String)
  | variablesIn (what : String)
  | unexpectedToken
  | unknownVerb (subject : String)
  | repeatedOption (word : String)
  | negativeScale
  | fractionalLayer
  deriving Repr, DecidableEq

def Mistake.message : Mistake → String
  | .unknownEscape => "unknown escape sequence"
  | .unterminatedReference => "unterminated variable reference"
  | .badVariableName => "bad variable name"
  | .unmatchedBrace => "unmatched '\x7d'"
  | .unterminatedText => "unterminated quoted text"
  | .expectedText => "expected quoted text"
  | .missingCurtainBeforeScene scene => s!"scene '{scene}' is missing CURTAIN before a new SCENE"
  | .expectedSceneLine => "expected 'SCENE <name>'"
  | .missingCurtain scene => s!"scene '{scene}' is missing CURTAIN"
  | .noScenes => "script contains no scenes"
  | .trailingText => "unexpected text after directive"
  | .unrecognizedLine => "unrecognized line, expected dialogue, stage direction or log"
  | .unterminatedEmotion => "unterminated emotion"
  | .badEmotionName => "bad emotion name"
  | .expectedLog => "expected '\x7blog \"...\"\x7d'"
  | .unclosedLog => "expected '\x7d' to close log"
  | .unterminatedDirection => "unterminated stage direction, expected ')'"
  | .unexpectedCharacter => "unexpected character in stage direction"
  | .emptyDirection => "empty stage direction"
  | .expected what => s!"expected {what}"
  | .expectedWord ws => "expected " ++ String.intercalate " or " (ws.map Text.quote)
  | .variablesIn what => s!"{what} cannot contain variables"
  | .unexpectedToken => "unexpected token"
  | .unknownVerb subject => s!"unknown verb for {subject}"
  | .repeatedOption w => s!"duplicate option '{w}'"
  | .negativeScale => "scale cannot be negative"
  | .fractionalLayer => "layer must be an integer"

/-- A mistake in a text, the text from the mistake on, and the piece of it to blame. -/
structure Flaw where
  mistake : Mistake
  rest : List Char
  token : List Char
  deriving Repr, DecidableEq

/-- A mistake with its place: a line and a column from 1, and the number of bytes before it. -/
structure SyntaxError where
  mistake : Mistake
  source : Option String
  line : Int
  column : Int
  offset : Int
  token : String
  deriving Repr, DecidableEq

/-- The name that messages give to where a script came from. -/
def sourceName : Option String → String
  | some name => if name.isEmpty then "<script>" else name
  | none => "<script>"

def SyntaxError.message (e : SyntaxError) : String :=
  let near := if e.token.isEmpty then "" else " near " ++ Text.quote e.token
  s!"{sourceName e.source}:{e.line}:{e.column}: " ++ e.mistake.message ++ near

/-- A script that is well written but refers to something that is not there. -/
inductive Problem where
  | duplicateScene (scene : String)
  | unknownScene (scene target : String)
  | noScenes
  deriving Repr, DecidableEq

def Problem.message : Problem → String
  | .duplicateScene scene => s!"duplicate scene '{scene}'"
  | .unknownScene scene target => s!"scene '{scene}' jumps to unknown scene '{target}'"
  | .noScenes => "script contains no scenes"

structure StructuralError where
  problem : Problem
  source : Option String
  line : Int
  deriving Repr, DecidableEq

def StructuralError.message (e : StructuralError) : String :=
  s!"{sourceName e.source}:{e.line}: " ++ e.problem.message

/-- A line of a script: its number from 1, its text without the line end, and the number of bytes
    before it. -/
structure Line where
  number : Int
  text : List Char
  offset : Int
  deriving Repr, DecidableEq

/-- The place of a flaw in its line: as many characters as come before its rest. -/
def Line.locate (source : Option String) (line : Line) (flaw : Flaw) : SyntaxError :=
  { mistake := flaw.mistake
    source := source
    line := line.number
    column := (line.text.length - flaw.rest.length + 1 : Nat)
    offset := line.offset + (Text.utf8Length line.text - Text.utf8Length flaw.rest : Nat)
    token := String.ofList flaw.token }

end VisualNovel.Script

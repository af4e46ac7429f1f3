import VisualNovel.Script.Phrase
import VisualNovel.Script.Validation

/-!
Script text, compiled. One directive stands on a line, blanks around it do not matter, and a line
that begins with `//` is a comment. `SCENE name` opens a scene and `CURTAIN` closes it.

`compile` gives the whole script or the first thing wrong with the text, never a part of one.
-/

namespace VisualNovel.Script

open Text

/-- The text without the byte order mark it may begin with. -/
def dropMark : List Char → List Char
  | '\ufeff' :: rest => rest
  | text => text

/-- The text of a line without the carriage return of its line end. -/
def dropReturn (raw : List Char) : List Char :=
  if raw.getLast? == some '\r' then raw.dropLast else raw

/-- Raw lines as numbered lines; each takes its bytes and one for the line feed. -/
def numberLines (number offset : Nat) : List (List Char) → List Line
  | [] => []
  | raw :: rest =>
    ⟨number, dropReturn raw, offset⟩ :: numberLines (number + 1) (offset + utf8Length raw + 1) rest

/-- The lines of a text. Only a line feed ends a line, and the last one may go without. -/
def linesOf (text : List Char) : List Line :=
  let raws := splitAtEach '\n' text
  numberLines 1 0 (if raws.getLast? == some [] then raws.dropLast else raws)

/-- Nothing but blanks may follow a directive. -/
def expectEnd (rest : List Char) : Except Flaw Unit :=
  match trimStart rest with
  | [] => .ok ()
  | trailing => .error ⟨.trailingText, trailing, trim trailing⟩

/-- A line of dialogue: `name: (emotion) "text"`, the emotion optional. -/
def dialogue (text : List Char) : Except Flaw Directive := do
  let unrecognized : Flaw := ⟨.unrecognizedLine, text, (words text).headD []⟩
  let name := text.takeWhile isNameChar
  if !isName name then .error unrecognized
  match trimStart (text.dropWhile isNameChar) with
  | ':' :: afterColon =>
    let (emotion, spoken) ←
      match trimStart afterColon with
      | '(' :: rest =>
        match breakAt? ')' rest with
        | none => .error ⟨.unterminatedEmotion, '(' :: rest, '(' :: rest⟩
        | some (inside, after) =>
          if isName (trim inside) then
            .ok (some (String.ofList (trim inside)), trimStart after)
          else .error ⟨.badEmotionName, '(' :: rest, '(' :: inside ++ [')']⟩
      | spoken => .ok (none, spoken)
    let (e, rest) ← readQuoted spoken
    expectEnd rest
    let speaker : Speaker :=
      match (Vocabulary.ofWord? (String.ofList name) : Option SpeakerKind) with
      | some .mainCharacter => ⟨.mainCharacter, none⟩
      | some .narrator => ⟨.narrator, none⟩
      | _ => ⟨.character, some (String.ofList name)⟩
    return .dialogue { speaker := speaker, text := e, emotion := emotion }
  | _ => .error unrecognized

/-- The text after an opening brace and the word `log`. -/
def afterLogWord? (text : List Char) : Option (List Char) :=
  match text with
  | '{' :: rest =>
    match trimStart rest with
    | 'l' :: 'o' :: 'g' :: after =>
      if (after.head?.map isNameChar).getD false then none else some (trimStart after)
    | _ => none
  | _ => none

/-- A log entry: `log "text"` in braces. -/
def logEntry (text : List Char) : Except Flaw Directive := do
  match afterLogWord? text with
  | none => .error ⟨.expectedLog, text, trim text⟩
  | some quoted =>
    let (e, rest) ← readQuoted quoted
    match trimStart rest with
    | '}' :: after => do
      expectEnd after
      return .log e
    | other => .error ⟨.unclosedLog, other, trim other⟩

/-- A stage direction: a phrase in parentheses. -/
def stageDirection (text : List Char) : Except Flaw Directive := do
  let (ts, after) ← tokens text.tail
  expectEnd after
  if ts.isEmpty then .error ⟨.emptyDirection, text, ['(', ')']⟩
  return .stage (← phrase ts)

/-- A directive, told apart by its first character. -/
def directive (text : List Char) : Except Flaw Directive :=
  match text with
  | '(' :: _ => stageDirection text
  | '{' :: _ => logEntry text
  | _ => dialogue text

/-- A line that begins with the word `SCENE`. -/
def opensScene : List Char → Bool
  | 'S' :: 'C' :: 'E' :: 'N' :: 'E' :: rest => !(rest.head?.map isNameChar).getD false
  | _ => false

/-- The name that a scene line gives, the second of exactly two words. -/
def sceneName? (text : List Char) : Option (List Char) :=
  match words text with
  | [_, name] => if isName name then some name else none
  | _ => none

/-- A scene that is still open: its name, its directives so far, the last one first, and its
    line. -/
structure OpenScene where
  name : String
  reversed : List Numbered
  line : Int

/-- What has been compiled of a text: the closed scenes, the open one and the last line. -/
structure Progress where
  closed : List Scene := []
  current : Option OpenScene := none
  last : Option Line := none

/-- One more line. -/
def Progress.step (source : Option String) (p : Progress) (line : Line) :
    Except CompileError Progress := do
  let p := { p with last := some line }
  let text := trimStart line.text
  let stripped := trimEnd text
  let fail {α : Type} (m : Mistake) (token : List Char) : Except CompileError α :=
    .error (.malformed (line.locate source ⟨m, text, token⟩))
  if stripped.isEmpty || stripped.take 2 == ['/', '/'] then return p
  if opensScene stripped then
    match p.current with
    | some scene => fail (.missingCurtainBeforeScene scene.name) "SCENE".toList
    | none =>
      match sceneName? stripped with
      | none => fail .expectedSceneLine stripped
      | some name =>
        let name := String.ofList name
        if p.closed.any fun s => s.name == name then
          .error (.unsound ⟨.duplicateScene name, source, line.number⟩)
        else return { p with current := some ⟨name, [], line.number⟩ }
  else
    match p.current with
    | none => fail .expectedSceneLine ((words stripped).headD [])
    | some scene =>
      if stripped == "CURTAIN".toList then
        let finished : Scene :=
          { name := scene.name, directives := scene.reversed.reverse, line := scene.line }
        return { p with closed := p.closed ++ [finished], current := none }
      else
        match directive text with
        | .error flaw => .error (.malformed (line.locate source flaw))
        | .ok d =>
          let scene := { scene with reversed := ⟨d, line.number⟩ :: scene.reversed }
          return { p with current := some scene }

/-- The script, once the text is at its end. -/
def Progress.finish (source : Option String) (p : Progress) : Except CompileError Script :=
  match p.current, p.last with
  | some scene, some line =>
    .error (.malformed (line.locate source ⟨.missingCurtain scene.name, [], []⟩))
  | some scene, none => .error (.malformed ⟨.missingCurtain scene.name, source, 1, 1, 0, ""⟩)
  | none, last =>
    if p.closed.isEmpty then
      .error (.malformed ⟨.noScenes, source, (last.map (·.number)).getD 1, 0, 0, ""⟩)
    else .ok { scenes := p.closed, name := source.getD "" }

/-- The script that a text reads as, not yet validated. -/
def parse (text : String) (source : Option String := none) : Except CompileError Script := do
  let lines := linesOf (dropMark text.toList)
  let p ← lines.foldlM (Progress.step source) {}
  p.finish source

/-- The validated script that a text reads as. -/
def compile (text : String) (source : Option String := none) : Except CompileError Script := do
  let script ← parse text source
  script.validate
  return script

end VisualNovel.Script

import VisualNovel.Script.Expression
import VisualNovel.Script.Mistake

/-!
Expressions as they are written: literal characters, of which five are escaped, and names of
variables in braces. `Expression.source` writes an expression between double quotes; `readQuoted`
reads it back and `parseExpression` reads the same text without the quotes.
-/

namespace VisualNovel.Script

open Text

/-- The character that an escape stands for, given the character after the backslash. -/
def unescape? : Char → Option Char
  | '"' => some '"'
  | '\\' => some '\\'
  | '{' => some '{'
  | '}' => some '}'
  | 'n' => some '\n'
  | _ => none

/-- A literal character as it is written. -/
def escape (c : Char) : List Char :=
  if c == '\n' then ['\\', 'n']
  else if c == '"' || c == '\\' || c == '{' || c == '}' then ['\\', c]
  else [c]

/-- An atom as it is written. -/
def writeAtom : Atom → List Char
  | .char c => escape c
  | .variable name => '{' :: name.toList ++ ['}']

/-- One more atom in front of those already read. -/
def consAtom (a : Atom) : List Atom × List Char → List Atom × List Char
  | (atoms, tail) => (a :: atoms, tail)

/-- The atoms that a text spells and the text after them. Inside quotes, where `opening` is the
    text from the opening quote on, they end at a closing quote; else at the end of the text. -/
def scan (opening : Option (List Char)) : List Char → Except Flaw (List Atom × List Char)
  | [] =>
    match opening with
    | none => .ok ([], [])
    | some quoted => .error ⟨.unterminatedText, quoted, quoted⟩
  | c :: rest =>
    if c == '"' && opening.isSome then .ok ([], rest)
    else if c == '\\' then
      match rest with
      | [] => .error ⟨.unknownEscape, [c], [c]⟩
      | e :: after =>
        match unescape? e with
        | none => .error ⟨.unknownEscape, c :: e :: after, [c, e]⟩
        | some d => (scan opening after).map (consAtom (.char d))
    else if c == '{' then
      match _h : breakAt? '}' rest with
      | none => .error ⟨.unterminatedReference, c :: rest, c :: rest⟩
      | some (inside, after) =>
        if isName (trim inside) then
          (scan opening after).map (consAtom (.variable (String.ofList (trim inside))))
        else .error ⟨.badVariableName, c :: rest, c :: inside ++ ['}']⟩
    else if c == '}' then .error ⟨.unmatchedBrace, c :: rest, [c]⟩
    else (scan opening rest).map (consAtom (.char c))
  termination_by text => text.length
  decreasing_by
    · simp only [List.length_cons]
      omega
    · have := length_of_breakAt? _h
      simp only [List.length_cons]
      omega
    · simp

/-- The expression between the quotes that a text begins with, and the text after them. -/
def readQuoted : List Char → Except Flaw (Expression × List Char)
  | '"' :: rest =>
    (scan (some ('"' :: rest)) rest).map fun (atoms, tail) => (Expression.ofAtoms atoms, tail)
  | text => .error ⟨.expectedText, text, text.take 1⟩

/-- The expression that a text spells without quotes. Its mistakes belong to no line. -/
def parseExpression (text : String) : Except SyntaxError Expression :=
  match scan none text.toList with
  | .ok (atoms, _) => .ok (Expression.ofAtoms atoms)
  | .error flaw => .error (Line.locate none ⟨0, text.toList, 0⟩ flaw)

end Script

/-- The characters of the quoted form of an expression. -/
def Expression.written (e : Expression) : List Char :=
  '"' :: e.atoms.flatMap Script.writeAtom ++ ['"']

/-- The quoted form of an expression. -/
def Expression.source (e : Expression) : String := String.ofList e.written

end VisualNovel

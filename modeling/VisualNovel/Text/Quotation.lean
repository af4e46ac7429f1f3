import VisualNovel.Text.CharClass

/-!
Text as an error message quotes it: between single quotes, or double ones where only these spare
an escape, with everything that cannot be shown written as an escape of fixed width.
-/

namespace VisualNovel.Text

/-- The last `width` hexadecimal digits of a number, in lower case. -/
def hexDigits : (width : Nat) → Nat → List Char
  | 0, _ => []
  | width + 1, n => hexDigits width (n / 16) ++ [Nat.digitChar (n % 16)]

/-- A character inside quotation marks `mark`. -/
def quoteChar (mark c : Char) : List Char :=
  if c == mark || c == '\\' then ['\\', c]
  else if c == '\n' then ['\\', 'n']
  else if c == '\r' then ['\\', 'r']
  else if c == '\t' then ['\\', 't']
  else if isShown c then [c]
  else if c.toNat < 0x100 then '\\' :: 'x' :: hexDigits 2 c.toNat
  else if c.toNat < 0x10000 then '\\' :: 'u' :: hexDigits 4 c.toNat
  else '\\' :: 'U' :: hexDigits 8 c.toNat

/-- Double quotes serve only for a text that holds a single quote and no double one. -/
def quotationMark (cs : List Char) : Char :=
  if cs.contains '\'' && !cs.contains '"' then '"' else '\''

/-- The text as a message quotes it. -/
def quote (text : String) : String :=
  let cs := text.toList
  let mark := quotationMark cs
  String.ofList (mark :: cs.flatMap (quoteChar mark) ++ [mark])

end VisualNovel.Text

import VisualNovel.Text.Words

/-!
Fonts of one width, and text broken into lines that fit.
-/

namespace VisualNovel

/-- A font; all its characters are half as wide as they are high, and one pixel wider in bold. -/
structure Font where
  size : Int
  bold : Bool := false
  deriving Repr, DecidableEq

namespace Font

def charWidth (f : Font) : Int := f.size / 2 + if f.bold then 1 else 0

/-- The width of a text. -/
def measure (f : Font) (text : List Char) : Int := text.length * f.charWidth

/-- The distance from one line to the next. -/
def lineHeight (f : Font) : Int := f.size + 4

end Font

namespace Text

/-- The lines of a paragraph whose first words are already on a line. A word goes on the line if
    it fits there after a space, or if nothing is on the line yet. -/
def fillLines (measure : List Char → Int) (width : Int) (line : List Char) :
    List (List Char) → List (List Char)
  | [] => [line]
  | word :: rest =>
    if line.isEmpty then fillLines measure width word rest
    else
      let longer := line ++ ' ' :: word
      if width < measure longer then line :: fillLines measure width word rest
      else fillLines measure width longer rest

/-- The lines of a text, each no wider than allowed unless it is a single word. A line feed always
    ends a line. -/
def wrap (measure : List Char → Int) (width : Int) (text : List Char) : List (List Char) :=
  (splitAtEach '\n' text).flatMap fun paragraph =>
    fillLines measure width [] (splitAtEach ' ' paragraph)

end Text

end VisualNovel

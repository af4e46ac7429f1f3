import VisualNovel.Text.WordRanges
import VisualNovel.Text.HiddenRanges

/-!
The four classes of characters that the library tells apart: blanks, decimal digits, characters
of a name, and characters that a quotation shows as they are. All four are Unicode classes; the
ASCII part of each is written out, the rest is looked up in a table of ranges.
-/

namespace VisualNovel.Text

/-- Membership of a code point in a block of closed ranges. -/
def inRanges (blocks : List (List (Nat × Nat))) (n : Nat) : Bool :=
  blocks.any fun ranges => ranges.any fun (lo, hi) => lo ≤ n && n ≤ hi

/-- White space: the separators of Unicode, the tabs and line ends of ASCII, and the four
    information separators U+001C to U+001F. -/
def isBlank (c : Char) : Bool :=
  let n := c.toNat
  (0x9 ≤ n && n ≤ 0xd) || (0x1c ≤ n && n ≤ 0x20) || n == 0x85 || n == 0xa0 || n == 0x1680 ||
    (0x2000 ≤ n && n ≤ 0x200a) || n == 0x2028 || n == 0x2029 || n == 0x202f || n == 0x205f ||
    n == 0x3000

/-- The zero of every run of ten decimal digits. -/
def digitZeros : List Nat := [
  0x30, 0x660, 0x6f0, 0x7c0, 0x966, 0x9e6, 0xa66, 0xae6, 0xb66, 0xbe6, 0xc66, 0xce6, 0xd66, 0xde6,
  0xe50, 0xed0, 0xf20, 0x1040, 0x1090, 0x17e0, 0x1810, 0x1946, 0x19d0, 0x1a80, 0x1a90, 0x1b50,
  0x1bb0, 0x1c40, 0x1c50, 0xa620, 0xa8d0, 0xa900, 0xa9d0, 0xa9f0, 0xaa50, 0xabf0, 0xff10, 0x104a0,
  0x10d30, 0x11066, 0x110f0, 0x11136, 0x111d0, 0x112f0, 0x11450, 0x114d0, 0x11650, 0x116c0,
  0x11730, 0x118e0, 0x11950, 0x11c50, 0x11d50, 0x11da0, 0x16a60, 0x16ac0, 0x16b50, 0x1d7ce,
  0x1d7d8, 0x1d7e2, 0x1d7ec, 0x1d7f6, 0x1e140, 0x1e2f0, 0x1e950, 0x1fbf0]

/-- The value of a decimal digit of any script. -/
def digitValue? (c : Char) : Option Nat :=
  (digitZeros.find? fun first => first ≤ c.toNat && c.toNat < first + 10).map (c.toNat - ·)

/-- A decimal digit of any script. -/
def isDigit (c : Char) : Bool := (digitValue? c).isSome

/-- A character of a name: a letter, a number or the low line. -/
def isNameChar (c : Char) : Bool :=
  if c.toNat < 0x80 then c.isAlphanum || c == '_' else inRanges wordRanges c.toNat

/-- A character that may begin a name: any character of a name but a decimal digit. -/
def isNameStart (c : Char) : Bool := isNameChar c && !isDigit c

/-- A character that a quotation shows as it is. -/
def isShown (c : Char) : Bool :=
  if c.toNat < 0x80 then 0x20 ≤ c.toNat && c.toNat < 0x7f else !inRanges hiddenRanges c.toNat

/-- A name: a character that may begin one, then any characters of a name. -/
def isName : List Char → Bool
  | [] => false
  | c :: rest => isNameStart c && rest.all isNameChar

end VisualNovel.Text

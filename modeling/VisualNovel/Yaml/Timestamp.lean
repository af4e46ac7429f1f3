import VisualNovel.Data
import VisualNovel.Number.Numeral

/-!
Plain scalars that write a day or a moment. A day alone has two digits for its month and its day;
before a time one digit will do. The time follows a `T` or blanks, and may have a fraction of a
second and an offset from universal time, for which `Z` stands for none.
-/

namespace VisualNovel.Yaml

/-- A digit of ASCII. -/
def isPlainDigit (c : Char) : Bool := '0' ≤ c && c ≤ '9'

/-- The number in the digits, between `least` and `most` of them, that a text begins with, and the
    text after them. -/
def clockNumber? (least most : Nat) (cs : List Char) : Option (Nat × List Char) :=
  let digits := (cs.take most).takeWhile isPlainDigit
  if digits.length < least then none
  else some (Number.ofDigits 10 (digits.map fun c => c.toNat - '0'.toNat), cs.drop digits.length)

/-- The text after a mark. -/
def afterMark? (mark : Char) : List Char → Option (List Char)
  | c :: rest => if c == mark then some rest else none
  | [] => none

/-- A day whose month and day have at least so many digits, and the text after it. -/
def dayBegin? (least : Nat) (cs : List Char) : Option (Day × List Char) := do
  let (year, cs) ← clockNumber? 4 4 cs
  let (month, cs) ← clockNumber? least 2 (← afterMark? '-' cs)
  let (day, cs) ← clockNumber? least 2 (← afterMark? '-' cs)
  return (⟨year, month, day⟩, cs)

def isGap (c : Char) : Bool := c == ' ' || c == '\t'

/-- The text after what separates a day from a time. -/
def afterDay? : List Char → Option (List Char)
  | c :: rest =>
    if c == 'T' || c == 't' then some rest
    else if isGap c then some (rest.dropWhile isGap)
    else none
  | [] => none

/-- A fraction of a second in microseconds, further digits cut off, and the text after it. -/
def microseconds : List Char → Nat × List Char
  | '.' :: rest =>
    let digits := rest.takeWhile isPlainDigit
    let six := (digits ++ List.replicate 6 '0').take 6
    (Number.ofDigits 10 (six.map fun c => c.toNat - '0'.toNat), rest.drop digits.length)
  | cs => (0, cs)

/-- The offset, in minutes, that is all of a text; there need not be one. -/
def wholeOffset? (cs : List Char) : Option (Option Int) :=
  if cs.isEmpty then some none
  else
    match cs.dropWhile isGap with
    | ['Z'] => some (some 0)
    | sign :: rest =>
      if sign == '+' || sign == '-' then do
        let (hours, rest) ← clockNumber? 1 2 rest
        let (minutes, rest) ←
          match rest with
          | ':' :: more => clockNumber? 2 2 more
          | _ => some (0, rest)
        if rest.isEmpty then
          return some (Number.signed (sign == '-') (60 * hours + minutes))
        else none
      else none
    | [] => none

/-- The moment that a plain scalar writes. -/
def moment? (text : List Char) : Option Moment := do
  let (day, cs) ← dayBegin? 1 text
  let (hour, cs) ← clockNumber? 1 2 (← afterDay? cs)
  let (minute, cs) ← clockNumber? 2 2 (← afterMark? ':' cs)
  let (second, cs) ← clockNumber? 2 2 (← afterMark? ':' cs)
  let (microsecond, cs) := microseconds cs
  let offset ← wholeOffset? cs
  return { day, hour, minute, second, microsecond, offset }

/-- The day that a plain scalar writes. -/
def day? (text : List Char) : Option Day :=
  match dayBegin? 2 text with
  | some (day, []) => some day
  | _ => none

end VisualNovel.Yaml

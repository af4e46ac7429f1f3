import VisualNovel.Yaml.Flaw
import VisualNovel.Yaml.Timestamp

/-!
What a plain scalar means: a truth value, a number, a day or a moment, nothing, or the text itself.
The rules are those of YAML 1.1, under which `yes` is a truth value, a leading zero makes a number
octal, colons separate sixties, and a real number has a point.
-/

namespace VisualNovel.Yaml

open VisualNovel.Text VisualNovel.Number

def trueWords : List String :=
  ["yes", "Yes", "YES", "true", "True", "TRUE", "on", "On", "ON"]

def falseWords : List String :=
  ["no", "No", "NO", "false", "False", "FALSE", "off", "Off", "OFF"]

def nullWords : List String := ["", "~", "null", "Null", "NULL"]

/-- The value of a digit in a base up to sixteen. -/
def digitIn? (base : Nat) (c : Char) : Option Nat :=
  let value :=
    if isPlainDigit c then c.toNat - '0'.toNat
    else if 'a' ≤ c && c ≤ 'f' then c.toNat - 'a'.toNat + 10
    else if 'A' ≤ c && c ≤ 'F' then c.toNat - 'A'.toNat + 10
    else base
  if value < base then some value else none

/-- The number that digits make in a base; low lines among them do not count. -/
def magnitude? (base : Nat) (cs : List Char) : Option Nat :=
  if cs.isEmpty then none
  else ((cs.filter (· != '_')).mapM (digitIn? base)).map (ofDigits base)

/-- A part after a colon: a number below sixty in one or two digits. -/
def sixtieth? : List Char → Option Nat
  | [d] => digitIn? 10 d
  | [t, d] => do return 10 * (← digitIn? 6 t) + (← digitIn? 10 d)
  | _ => none

/-- Whether a text begins with a digit of ASCII. -/
def beginsWithDigit : List Char → Bool
  | c :: _ => isPlainDigit c
  | [] => false

/-- The magnitude of a whole number. -/
def wholeMagnitude? : List Char → Option Nat
  | '0' :: 'b' :: digits => magnitude? 2 digits
  | '0' :: 'x' :: digits => magnitude? 16 digits
  | ['0'] => some 0
  | '0' :: digits => magnitude? 8 digits
  | cs =>
    if beginsWithDigit cs then
      match splitAtEach ':' cs with
      | first :: rest => do
        let n ← magnitude? 10 first
        return (← rest.mapM sixtieth?).foldl (fun n part => 60 * n + part) n
      | [] => none
    else none

/-- The exponent of a real number, which has a sign. -/
def exponent? : List Char → Option Int
  | [] => some 0
  | c :: sign :: digits =>
    if (c == 'e' || c == 'E') && (sign == '+' || sign == '-') && !digits.isEmpty then
      (digits.mapM (digitIn? 10)).map fun ds => signed (sign == '-') (ofDigits 10 ds)
    else none
  | _ => none

/-- The decimal with these digits before the point and this text after it. -/
def decimal? (negative : Bool) (whole afterPoint : List Char) (exponentAllowed : Bool) :
    Option Float := do
  let isPart (c : Char) : Bool := isPlainDigit c || c == '_'
  let fraction := (afterPoint.takeWhile isPart).filter (· != '_')
  let tail := afterPoint.dropWhile isPart
  let exponent ← if tail.isEmpty || exponentAllowed then exponent? tail else none
  let digits ← ((whole.filter (· != '_')) ++ fraction).mapM (digitIn? 10)
  return ofDecimal negative (ofDigits 10 digits) (exponent - fraction.length)

/-- The real number whose whole part is written in sixties. -/
def sexagesimal? (negative : Bool) (whole afterPoint : List Char) : Option Float := do
  match (splitAtEach ':' whole).reverse with
  | last :: middle :: first =>
    let parts := (middle :: first).reverse
    let lead ← magnitude? 10 (parts.headD [])
    let inner ← (parts.drop 1).mapM sixtieth?
    discard (sixtieth? last)
    let lowest ← decimal? false last afterPoint false
    let places := lowest :: (inner.reverse ++ [lead]).map fun (n : Nat) => ofInt n
    let (sum, _) :=
      places.foldl (fun (sum, unit) x => (sum + x * ofInt unit, unit * 60)) (0, (1 : Int))
    return if negative then -sum else sum
  | _ => none

/-- The real number that a plain scalar writes. -/
def real? (text : List Char) : Option Float :=
  let hasSign := text.head? == some '-' || text.head? == some '+'
  let (negative, body) := signOf text
  let word := String.ofList body
  if [".inf", ".Inf", ".INF"].contains word then some (infinite negative)
  else if !hasSign && [".nan", ".NaN", ".NAN"].contains word then some notANumber
  else
    match breakAt? '.' body with
    | none => none
    | some ([], afterPoint) =>
      if !hasSign && beginsWithDigit afterPoint then decimal? negative [] afterPoint true else none
    | some (whole, afterPoint) =>
      if !beginsWithDigit whole then none
      else if whole.contains ':' then sexagesimal? negative whole afterPoint
      else decimal? negative whole afterPoint true

/-- The whole number that a plain scalar writes. -/
def whole? (text : List Char) : Option Int :=
  let (negative, body) := signOf text
  (wholeMagnitude? body).map (signed negative)

/-- What is at fault with the text of a whole number. The limit on the digits is one on decimal
    ones. -/
def wholeFault? (text : List Char) : Option Fault :=
  let marks (c : Char) : Bool := c != '_' && c != ':'
  match (signOf text).2 with
  | '0' :: base :: digits =>
    if (base == 'b' || base == 'x') && !digits.any marks then some .noDigits else none
  | body =>
    if digitLimit < ((body.takeWhile (· != ':')).filter marks).length then some .tooManyDigits
    else none

/-- What is at fault with the text of a real number. -/
def realFault? (text : List Char) : Option Fault :=
  let highest : Nat := Nat.pow 60 ((splitAtEach ':' text).length - 1)
  if (ofInt highest).isInf then some .tooLarge else none

/-- A value, unless it is at fault. -/
def unlessFault (fault : Option Fault) (d : Data) : Except Flaw Data :=
  match fault with
  | some fault => .error (.scalar fault)
  | none => .ok d

/-- What a plain scalar means. -/
def resolve (text : List Char) : Except Flaw Data :=
  let word := String.ofList text
  if trueWords.contains word then .ok (.bool true)
  else if falseWords.contains word then .ok (.bool false)
  else if nullWords.contains word then .ok .null
  else if word == "=" || word == "<<" then .error .specialKey
  else
    match real? text, whole? text, day? text, moment? text with
    | some x, _, _, _ => unlessFault (realFault? text) (.float x)
    | none, some n, _, _ => unlessFault (wholeFault? text) (.int n)
    | none, none, some d, _ =>
      unlessFault (if d.isReal then none else some .unrealTime) (.day d)
    | none, none, none, some m =>
      unlessFault (if m.isReal then none else some .unrealTime) (.moment m)
    | none, none, none, none => .ok (.text word)

end VisualNovel.Yaml

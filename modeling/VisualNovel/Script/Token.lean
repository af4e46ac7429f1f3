import VisualNovel.Number.Shortest
import VisualNovel.Script.Quoted

/-!
The tokens of a stage direction: words, numbers and quoted expressions. Each step of the reader
takes a token off the text and leaves a shorter one, so reading ends.
-/

namespace VisualNovel.Script

open Text

inductive TokenValue where
  | word (w : String)
  | text (e : Expression)
  | number (x : Float)
  deriving BEq

/-- A token, its characters, and the text of its line from the token on. -/
structure Token where
  value : TokenValue
  raw : List Char
  rest : List Char
  deriving BEq

/-- The flaw of a phrase at one of its tokens. -/
def Token.flaw (t : Token) (m : Mistake) : Flaw := ⟨m, t.rest, t.raw⟩

theorem eq_ok_of_map_consAtom {a : Atom} {r : Except Flaw (List Atom × List Char)}
    {atoms : List Atom} {tail : List Char} (h : r.map (consAtom a) = .ok (atoms, tail)) :
    ∃ more, r = .ok (more, tail) ∧ atoms = a :: more := by
  match r with
  | .error _ => simp [Except.map] at h
  | .ok (more, tail') =>
    simp only [Except.map, consAtom, Except.ok.injEq, Prod.mk.injEq] at h
    exact ⟨more, by simp [h.2], h.1.symm⟩

theorem length_of_scan {opening : Option (List Char)} {text tail : List Char} {atoms : List Atom}
    (h : scan opening text = .ok (atoms, tail)) : tail.length ≤ text.length := by
  fun_induction scan opening text generalizing atoms <;>
    grind [→ eq_ok_of_map_consAtom, → length_of_breakAt?]

/-- A quoted expression takes at least its opening quote off the text. -/
theorem length_of_readQuoted {text tail : List Char} {e : Expression}
    (h : readQuoted text = .ok (e, tail)) : tail.length < text.length := by
  unfold readQuoted at h
  split at h
  · rename_i rest
    match hscan : scan (some ('"' :: rest)) rest with
    | .error _ => simp [hscan, Except.map] at h
    | .ok (atoms, tail') =>
      simp only [hscan, Except.map, Except.ok.injEq, Prod.mk.injEq] at h
      have := length_of_scan hscan
      simp only [← h.2, List.length_cons]
      omega
  · simp at h

/-- The value of a run of decimal digits. -/
def digitsValue (ds : List Char) : Nat :=
  ds.foldl (fun n c => 10 * n + (digitValue? c).getD 0) 0

theorem length_dropWhile_le (p : Char → Bool) (text : List Char) :
    (text.dropWhile p).length ≤ text.length :=
  (List.dropWhile_sublist p).length_le

/-- Where a non-empty run of characters is taken off, less is left. -/
theorem length_dropWhile_lt {p : Char → Bool} {text : List Char}
    (h : (text.takeWhile p).isEmpty = false) : (text.dropWhile p).length < text.length := by
  cases text with
  | nil => simp at h
  | cons c rest =>
    by_cases hc : p c
    · have := length_dropWhile_le p rest
      simp only [List.dropWhile_cons_of_pos hc, List.length_cons]
      omega
    · simp [hc] at h

/-- Whether a number is negative, and the text after its sign. -/
def sign : List Char → Bool × List Char
  | '-' :: rest => (true, rest)
  | text => (false, text)

/-- The decimal places after the whole digits of a number, none unless a digit follows the point,
    and the text after them. -/
def places : List Char → List Char × List Char
  | '.' :: rest =>
    if (rest.takeWhile isDigit).isEmpty then ([], '.' :: rest)
    else (rest.takeWhile isDigit, rest.dropWhile isDigit)
  | text => ([], text)

/-- The text without the percent sign it begins with. -/
def dropPercent : List Char → List Char
  | '%' :: rest => rest
  | text => text

theorem length_sign_le (text : List Char) : (sign text).2.length ≤ text.length := by
  unfold sign
  split <;> simp

theorem length_places_le (text : List Char) : (places text).2.length ≤ text.length := by
  unfold places
  split
  · split
    · simp
    · have := length_dropWhile_le isDigit
      grind
  · simp

theorem length_dropPercent_le (text : List Char) : (dropPercent text).length ≤ text.length := by
  unfold dropPercent
  split <;> simp

/-- The number that a text begins with: an optional minus sign, digits, optionally a point and
    further digits, optionally a percent sign that adds nothing. Also the text after it. -/
def numberAt? (text : List Char) : Option (Float × List Char) :=
  let (negative, unsigned) := sign text
  let whole := unsigned.takeWhile isDigit
  if whole.isEmpty then none
  else
    let (fraction, after) := places (unsigned.dropWhile isDigit)
    let value := digitsValue (whole ++ fraction)
    some (Number.ofDecimal negative value (-(fraction.length : Int)), dropPercent after)

theorem length_of_numberAt? {text after : List Char} {x : Float}
    (h : numberAt? text = some (x, after)) : after.length < text.length := by
  simp only [numberAt?] at h
  split at h
  · simp at h
  · rename_i hwhole
    simp only [Option.some.injEq, Prod.mk.injEq] at h
    have h₁ := length_sign_le text
    have h₂ := length_dropWhile_lt (Bool.not_eq_true _ ▸ hwhole)
    have h₃ := length_places_le ((sign text).2.dropWhile isDigit)
    have h₄ := length_dropPercent_le (places ((sign text).2.dropWhile isDigit)).2
    rw [h.2] at h₄
    omega

/-- One more token in front of those already read. -/
def consToken (t : Token) : List Token × List Char → List Token × List Char
  | (ts, tail) => (t :: ts, tail)

/-- The tokens up to the closing parenthesis, and the text after it. -/
def tokens (text : List Char) : Except Flaw (List Token × List Char) :=
  match _hs : trimStart text with
  | [] => .error ⟨.unterminatedDirection, [], []⟩
  | c :: rest =>
    if c == ')' then .ok ([], rest)
    else if c == '"' then
      match _h : readQuoted (c :: rest) with
      | .error flaw => .error flaw
      | .ok (e, after) =>
        let raw := (c :: rest).take ((c :: rest).length - after.length)
        (tokens after).map (consToken ⟨.text e, raw, c :: rest⟩)
    else
      match _h : numberAt? (c :: rest) with
      | some (x, after) =>
        let raw := (c :: rest).take ((c :: rest).length - after.length)
        (tokens after).map (consToken ⟨.number x, raw, c :: rest⟩)
      | none =>
        if isNameStart c then
          let word := c :: rest.takeWhile isNameChar
          (tokens (rest.dropWhile isNameChar)).map
            (consToken ⟨.word (String.ofList word), word, c :: rest⟩)
        else .error ⟨.unexpectedCharacter, c :: rest, [c]⟩
  termination_by text.length
  decreasing_by
    all_goals have hlen := length_trimStart_le text
    all_goals rw [_hs] at hlen
    · have := length_of_readQuoted _h
      omega
    · have := length_of_numberAt? _h
      omega
    · have := length_dropWhile_le isNameChar rest
      simp only [List.length_cons] at hlen
      omega

end VisualNovel.Script

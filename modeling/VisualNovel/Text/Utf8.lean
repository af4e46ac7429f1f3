/-!
Reading UTF-8. A byte sequence that is not UTF-8 is refused with the place where the first bad
sequence starts and the way in which it is bad.
-/

namespace VisualNovel.Text

/-- What is wrong with a byte sequence. -/
inductive Utf8Flaw where
  /-- No character starts with this byte. -/
  | badStart
  /-- A byte that should continue a character does not. -/
  | badContinuation
  /-- The bytes end inside a character. -/
  | cutOff
  deriving Repr, DecidableEq

/-- A flaw and the index of the first byte of the sequence that has it. -/
structure Utf8Error where
  flaw : Utf8Flaw
  start : Nat
  deriving Repr, DecidableEq

def Utf8Flaw.message : Utf8Flaw → String
  | .badStart => "invalid start byte"
  | .badContinuation => "invalid continuation byte"
  | .cutOff => "unexpected end of data"

/-- The bytes owed after a first byte, with the range allowed for the second byte and the bits
    that the first byte gives; `none` for a byte that starts nothing. Overlong forms, surrogates
    and code points above U+10FFFF are excluded by the range of the second byte. -/
def leadByte? (b : Nat) : Option (Nat × Nat × Nat × Nat) :=
  if b < 0x80 then some (0, 0, 0, b)
  else if 0xc2 ≤ b ∧ b ≤ 0xdf then some (1, 0x80, 0xbf, b - 0xc0)
  else if 0xe0 ≤ b ∧ b ≤ 0xef then
    some (2, if b = 0xe0 then 0xa0 else 0x80, if b = 0xed then 0x9f else 0xbf, b - 0xe0)
  else if 0xf0 ≤ b ∧ b ≤ 0xf4 then
    some (3, if b = 0xf0 then 0x90 else 0x80, if b = 0xf4 then 0x8f else 0xbf, b - 0xf0)
  else none

/-- The code point that `owed` further bytes complete, the first of them within `lo` and `hi`,
    and the bytes after it. -/
def continuation (owed lo hi bits : Nat) : List UInt8 → Except Utf8Flaw (Nat × List UInt8)
  | bytes =>
    match owed, bytes with
    | 0, bytes => .ok (bits, bytes)
    | _ + 1, [] => .error .cutOff
    | owed + 1, b :: rest =>
      if lo ≤ b.toNat ∧ b.toNat ≤ hi then
        continuation owed 0x80 0xbf (bits * 64 + (b.toNat - 0x80)) rest
      else .error .badContinuation

theorem length_of_continuation {owed lo hi bits code : Nat} {bytes rest : List UInt8}
    (h : continuation owed lo hi bits bytes = .ok (code, rest)) :
    rest.length ≤ bytes.length := by
  induction owed generalizing lo hi bits bytes with
  | zero =>
    simp only [continuation, Except.ok.injEq, Prod.mk.injEq] at h
    simp [h.2]
  | succ owed ih =>
    cases bytes with
    | nil => simp [continuation] at h
    | cons b bs =>
      rw [continuation] at h
      split at h
      · have := ih h
        simp only [List.length_cons]
        omega
      · simp at h

/-- The characters that a byte sequence encodes; `start` counts the bytes before it. -/
def decodeUtf8From (start : Nat) : List UInt8 → Except Utf8Error (List Char)
  | [] => .ok []
  | b :: rest =>
    match leadByte? b.toNat with
    | none => .error ⟨.badStart, start⟩
    | some (owed, lo, hi, bits) =>
      match _h : continuation owed lo hi bits rest with
      | .error flaw => .error ⟨flaw, start⟩
      | .ok (code, after) =>
        match decodeUtf8From (start + owed + 1) after with
        | .error e => .error e
        | .ok cs => .ok (Char.ofNat code :: cs)
  termination_by bytes => bytes.length
  decreasing_by
    have := length_of_continuation _h
    simp only [List.length_cons]
    omega

/-- The characters that a byte sequence encodes. -/
def decodeUtf8 (bytes : List UInt8) : Except Utf8Error (List Char) := decodeUtf8From 0 bytes

end VisualNovel.Text

import VisualNovel.Text.CharClass

/-!
Cutting text: blanks off its ends, into words, at a separator. A text is a list of characters
here; a cut loses only the characters it cuts at.
-/

namespace VisualNovel.Text

/-- The text without the blanks it begins with. -/
def trimStart (cs : List Char) : List Char := cs.dropWhile isBlank

/-- The text without the blanks it ends with. -/
def trimEnd (cs : List Char) : List Char := (cs.reverse.dropWhile isBlank).reverse

/-- The text without the blanks at either end. -/
def trim (cs : List Char) : List Char := trimEnd (trimStart cs)

theorem length_trimStart_le (cs : List Char) : (trimStart cs).length ≤ cs.length :=
  (List.dropWhile_sublist isBlank).length_le

/-- The maximal runs of characters that are not blank. -/
def words : List Char → List (List Char)
  | [] => []
  | c :: rest =>
    if isBlank c then words rest
    else
      match rest with
      | [] => [[c]]
      | d :: _ =>
        if isBlank d then [c] :: words rest
        else
          match words rest with
          | [] => [[c]]
          | w :: ws => (c :: w) :: ws

/-- The pieces between the occurrences of a separator, one more than there are occurrences. -/
def splitAtEach (separator : Char) : List Char → List (List Char)
  | [] => [[]]
  | c :: rest =>
    if c == separator then [] :: splitAtEach separator rest
    else
      match splitAtEach separator rest with
      | [] => [[c]]
      | piece :: pieces => (c :: piece) :: pieces

/-- The text up to the first occurrence of a character and the text after it. -/
def breakAt? (mark : Char) : List Char → Option (List Char × List Char)
  | [] => none
  | c :: rest =>
    if c == mark then some ([], rest)
    else (breakAt? mark rest).map fun (before, after) => (c :: before, after)

theorem length_of_breakAt? {mark : Char} {cs before after : List Char}
    (h : breakAt? mark cs = some (before, after)) : after.length < cs.length := by
  induction cs generalizing before after with
  | nil => simp [breakAt?] at h
  | cons c rest ih =>
    rw [breakAt?] at h
    split at h
    · simp only [Option.some.injEq, Prod.mk.injEq] at h
      simp [← h.2]
    · obtain ⟨⟨b, a⟩, hba, heq⟩ := Option.map_eq_some_iff.1 h
      simp only [Prod.mk.injEq] at heq
      have := ih hba
      simp only [← heq.2, List.length_cons]
      omega

/-- The number of bytes that the text takes in UTF-8. -/
def utf8Length : List Char → Nat
  | [] => 0
  | c :: rest => c.utf8Size + utf8Length rest

end VisualNovel.Text

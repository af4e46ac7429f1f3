import Mathlib.Data.List.Chain
import VisualNovel.Drawing.Font
import VisualNovel.Proofs.Text.Lines

/-!
Text broken into lines. The lines of a paragraph have its words, each once and in order; a line fits
or is a single run without spaces, and no line begins with a word that had room on the line before.
Main statement: `wrap_wraps`.
-/

namespace VisualNovel.Text

/-! ### Runs -/

theorem splitAtEach_eq_splitOn (separator : Char) (text : List Char) :
    splitAtEach separator text = text.splitOn separator := by
  induction text with
  | nil => exact (List.splitOn_nil separator).symm
  | cons c rest ih =>
    obtain ⟨piece, pieces, hpieces⟩ := List.exists_cons_of_ne_nil (splitAtEach_ne_nil separator rest)
    rw [List.splitOn_cons_eq_if_modifyHead, splitAtEach, ← ih, hpieces]
    rfl

/-- The words of a text: its maximal runs without spaces. -/
def runs (text : List Char) : List (List Char) := (text.splitOn ' ').filter fun run => !run.isEmpty

theorem runs_append_space (text more : List Char) :
    runs (text ++ ' ' :: more) = runs text ++ runs more := by
  unfold runs
  rw [List.splitOn_append_cons_self, List.filter_append]

/-- What has no spaces is one word, unless there is nothing of it. -/
theorem runs_of_not_mem {piece : List Char} (h : ' ' ∉ piece) :
    runs piece = if piece.isEmpty then [] else [piece] := by
  unfold runs
  rw [List.splitOn_eq_singleton h]
  cases piece <;> rfl

theorem runs_nil : runs [] = [] := runs_of_not_mem List.not_mem_nil

/-- The words of a text are those of the pieces between its spaces. -/
theorem flatMap_runs_splitAtEach (text : List Char) :
    (splitAtEach ' ' text).flatMap runs = runs text := by
  have hpieces (pieces : List (List Char)) (h : ∀ piece ∈ pieces, ' ' ∉ piece) :
      pieces.flatMap runs = pieces.filter fun run => !run.isEmpty := by
    induction pieces with
    | nil => rfl
    | cons piece pieces ih =>
      obtain ⟨hpiece, hrest⟩ := List.forall_mem_cons.1 h
      rw [List.flatMap_cons, runs_of_not_mem hpiece, ih hrest]
      cases piece <;> rfl
  rw [hpieces _ fun piece hpiece => not_mem_of_mem_splitAtEach hpiece, splitAtEach_eq_splitOn]
  rfl

/-! ### Lines -/

/-- The lines of a paragraph, broken as late as the width allows. -/
structure Wraps (measure : List Char → Int) (width : Int) (paragraph : List Char)
    (lines : List (List Char)) : Prop where
  nonempty : lines ≠ []
  /-- The lines have the words of the paragraph, each once and in order. -/
  words : lines.flatMap runs = runs paragraph
  /-- What does not fit is a single run without spaces. -/
  fits : ∀ line ∈ lines, measure line ≤ width ∨ ' ' ∉ line
  /-- The first word of a line had no room on the line before it. -/
  greedy : lines.IsChain fun line next =>
    ∀ word, (runs next).head? = some word → width < measure (line ++ ' ' :: word)

section

variable {measure : List Char → Int} {width : Int}

theorem fillLines_nil_cons (word : List Char) (rest : List (List Char)) :
    fillLines measure width [] (word :: rest) = fillLines measure width word rest := rfl

/-- A line that something is on takes a further piece, or ends. -/
theorem fillLines_cons {line : List Char} (h : line ≠ []) (piece : List Char)
    (rest : List (List Char)) :
    fillLines measure width line (piece :: rest) =
      if width < measure (line ++ ' ' :: piece) then line :: fillLines measure width piece rest
      else fillLines measure width (line ++ ' ' :: piece) rest := by
  rw [fillLines, if_neg (by simpa using h)]

/-- The first line begins with what is on it already, and goes on after a space. -/
theorem exists_first_line (line : List Char) (pieces : List (List Char)) :
    ∃ first others, fillLines measure width line pieces = first :: others ∧
      (line ≠ [] → first = line ∨ ∃ more, first = line ++ ' ' :: more) := by
  induction pieces generalizing line with
  | nil => exact ⟨line, [], rfl, fun _ => .inl rfl⟩
  | cons piece rest ih =>
    by_cases hline : line = []
    · subst hline
      obtain ⟨first, others, heq, -⟩ := ih piece
      exact ⟨first, others, heq, fun h => absurd rfl h⟩
    rw [fillLines_cons hline]
    split
    · exact ⟨line, _, rfl, fun _ => .inl rfl⟩
    · obtain ⟨first, others, heq, hfirst⟩ := ih (line ++ ' ' :: piece)
      refine ⟨first, others, heq, fun _ => .inr ?_⟩
      rcases hfirst (by simp) with rfl | ⟨more, rfl⟩
      · exact ⟨piece, rfl⟩
      · exact ⟨piece ++ ' ' :: more, by simp⟩

theorem flatMap_runs_fillLines (line : List Char) (pieces : List (List Char)) :
    (fillLines measure width line pieces).flatMap runs = runs line ++ pieces.flatMap runs := by
  induction pieces generalizing line with
  | nil => simp [fillLines]
  | cons piece rest ih =>
    by_cases hline : line = []
    · rw [hline, fillLines_nil_cons, ih, List.flatMap_cons, runs_nil, List.nil_append]
    rw [fillLines_cons hline]
    split
    · rw [List.flatMap_cons, ih, List.flatMap_cons]
    · rw [ih, runs_append_space, List.append_assoc, List.flatMap_cons]

/-- A line grows only as long as it fits. -/
theorem fillLines_fits {line : List Char} {pieces : List (List Char)}
    (hline : measure line ≤ width ∨ ' ' ∉ line) (hpieces : ∀ piece ∈ pieces, ' ' ∉ piece) :
    ∀ l ∈ fillLines measure width line pieces, measure l ≤ width ∨ ' ' ∉ l := by
  induction pieces generalizing line with
  | nil => simpa [fillLines] using hline
  | cons piece rest ih =>
    obtain ⟨hpiece, hrest⟩ := List.forall_mem_cons.1 hpieces
    by_cases hempty : line = []
    · subst hempty
      exact ih (.inr hpiece) hrest
    rw [fillLines_cons hempty]
    split
    · exact List.forall_mem_cons.2 ⟨hline, ih (.inr hpiece) hrest⟩
    · next hfits => exact ih (.inl (Int.not_lt.1 hfits)) hrest

/-- Where a line ends, the first word of the next one had no room after a space: either that word
    is what did not fit, or not even the space did. -/
theorem fillLines_greedy (hgrows : ∀ text more, measure text ≤ measure (text ++ more))
    (line : List Char) {pieces : List (List Char)} (hpieces : ∀ piece ∈ pieces, ' ' ∉ piece) :
    (fillLines measure width line pieces).IsChain fun line next =>
      ∀ word, (runs next).head? = some word → width < measure (line ++ ' ' :: word) := by
  induction pieces generalizing line with
  | nil => exact .singleton _
  | cons piece rest ih =>
    obtain ⟨hpiece, hrest⟩ := List.forall_mem_cons.1 hpieces
    by_cases hempty : line = []
    · subst hempty
      exact ih piece hrest
    rw [fillLines_cons hempty]
    split
    · next hfull =>
      obtain ⟨first, others, heq, hfirst⟩ := @exists_first_line measure width piece rest
      have hchain := ih piece hrest
      rw [heq] at hchain ⊢
      refine List.isChain_cons_cons.2 ⟨fun word hword => ?_, hchain⟩
      by_cases hnone : piece = []
      · subst hnone
        have hmore := hgrows (line ++ [' ']) word
        rw [List.append_assoc, List.singleton_append] at hmore
        exact Int.lt_of_lt_of_le hfull hmore
      · have hbegins : (runs first).head? = some piece := by
          have hself : runs piece = [piece] := by
            rw [runs_of_not_mem hpiece, if_neg (by simpa using hnone)]
          rcases hfirst hnone with rfl | ⟨more, rfl⟩
          · rw [hself, List.head?_cons]
          · rw [runs_append_space, hself, List.singleton_append, List.head?_cons]
        obtain rfl := Option.some.inj (hbegins.symm.trans hword)
        exact hfull
    · exact ih _ hrest

theorem fillLines_wraps (hgrows : ∀ text more, measure text ≤ measure (text ++ more))
    (paragraph : List Char) :
    Wraps measure width paragraph (fillLines measure width [] (splitAtEach ' ' paragraph)) where
  nonempty := by
    obtain ⟨first, others, heq, -⟩ := @exists_first_line measure width [] (splitAtEach ' ' paragraph)
    rw [heq]
    exact List.cons_ne_nil _ _
  words := by
    rw [flatMap_runs_fillLines, runs_nil, List.nil_append, flatMap_runs_splitAtEach]
  fits := fillLines_fits (.inr List.not_mem_nil) fun _ => not_mem_of_mem_splitAtEach
  greedy := fillLines_greedy hgrows [] fun _ => not_mem_of_mem_splitAtEach

end

/-- A font measures no text as shorter when something is added to it. -/
theorem measure_le_append {font : Font} (h : 0 ≤ font.size) (text more : List Char) :
    font.measure text ≤ font.measure (text ++ more) := by
  have hwidth : 0 ≤ font.charWidth := by
    unfold Font.charWidth
    split <;> omega
  have hlength : (text.length : Int) ≤ (text ++ more).length := by
    rw [List.length_append]
    omega
  exact Int.mul_le_mul_of_nonneg_right hlength hwidth

/-- Text is broken into lines paragraph by paragraph, for every measure under which a text gets no
    shorter when something is added to it: each paragraph has lines of its own, at least one, with
    its words, broken as late as the width allows. -/
theorem wrap_wraps {measure : List Char → Int}
    (hgrows : ∀ text more, measure text ≤ measure (text ++ more)) (width : Int) (text : List Char) :
    ∃ groups, wrap measure width text = groups.flatten ∧
      List.Forall₂ (Wraps measure width) (text.splitOn '\n') groups := by
  refine ⟨_, List.flatMap_def, ?_⟩
  rw [splitAtEach_eq_splitOn, List.forall₂_map_right_iff]
  exact List.forall₂_same.2 fun paragraph _ => fillLines_wraps hgrows paragraph

/-- Of three spaces the first still fits; none of them is at the beginning of the next line. -/
theorem wrap_wraps_three_spaces :
    let font : Font := { size := 20 }
    let text := "we go   home\n".toList
    (∀ text more, font.measure text ≤ font.measure (text ++ more)) ∧
      wrap font.measure 60 text = ["we go ".toList, "home".toList, []] ∧
      ∃ groups, wrap font.measure 60 text = groups.flatten ∧
        List.Forall₂ (Wraps font.measure 60) (text.splitOn '\n') groups := by
  intro font text
  have hgrows := @measure_le_append font (by decide)
  exact ⟨hgrows, by decide, wrap_wraps hgrows 60 text⟩

end VisualNovel.Text

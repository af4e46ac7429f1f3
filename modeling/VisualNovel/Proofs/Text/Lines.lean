import VisualNovel.Proofs.Text.Names

/-!
Lines and words. Lines that each end with a line feed are split into the same lines again, and a
text of two words is cut into these words.
-/

namespace VisualNovel.Text

/-! ### Lines -/

/-- A text of lines, each with a line feed behind it. -/
def unlines (lines : List (List Char)) : List Char := lines.flatMap (· ++ ['\n'])

@[simp] theorem unlines_nil : unlines [] = [] := rfl

@[simp] theorem unlines_cons (line : List Char) (lines : List (List Char)) :
    unlines (line :: lines) = line ++ '\n' :: unlines lines := by
  simp [unlines]

@[simp] theorem unlines_append (lines lines' : List (List Char)) :
    unlines (lines ++ lines') = unlines lines ++ unlines lines' :=
  List.flatMap_append

/-- A piece without the separator is split off whole. -/
theorem splitAtEach_append {separator : Char} {piece : List Char} (h : separator ∉ piece)
    (rest : List Char) :
    splitAtEach separator (piece ++ separator :: rest) = piece :: splitAtEach separator rest := by
  induction piece with
  | nil => simp [splitAtEach]
  | cons c piece ih =>
    rw [List.mem_cons, not_or] at h
    have hne : (c == separator) = false := by simpa using fun heq => h.1 heq.symm
    simp [splitAtEach, hne, ih h.2]

/-- Lines that end with a line feed are split into these lines, and nothing is left behind. -/
theorem splitAtEach_unlines {lines : List (List Char)} (h : ∀ line ∈ lines, '\n' ∉ line) :
    splitAtEach '\n' (unlines lines) = lines ++ [[]] := by
  induction lines with
  | nil => rfl
  | cons line lines ih =>
    obtain ⟨hline, hlines⟩ := List.forall_mem_cons.1 h
    rw [unlines_cons, splitAtEach_append hline, ih hlines, List.cons_append]

theorem splitAtEach_ne_nil (separator : Char) (text : List Char) :
    splitAtEach separator text ≠ [] := by
  cases text with
  | nil => exact List.cons_ne_nil _ _
  | cons c rest =>
    rw [splitAtEach]
    split
    · exact List.cons_ne_nil _ _
    · split <;> exact List.cons_ne_nil _ _

/-- No piece has the separator in it. -/
theorem not_mem_of_mem_splitAtEach {separator : Char} {text piece : List Char}
    (h : piece ∈ splitAtEach separator text) : separator ∉ piece := by
  induction text generalizing piece with
  | nil => simp_all [splitAtEach]
  | cons c rest ih =>
    obtain ⟨first, pieces, hpieces⟩ :=
      List.exists_cons_of_ne_nil (splitAtEach_ne_nil separator rest)
    rw [hpieces] at ih
    rw [splitAtEach, hpieces] at h
    split at h
    · rcases List.mem_cons.1 h with rfl | hrest
      · exact List.not_mem_nil
      · exact ih hrest
    · next hother =>
      rcases List.mem_cons.1 h with rfl | hrest
      · rw [List.mem_cons, not_or]
        exact ⟨fun heq => hother (beq_iff_eq.2 heq.symm), ih List.mem_cons_self⟩
      · exact ih (List.mem_cons_of_mem _ hrest)

/-- A piece between two line feeds stands in the text behind the lines before it. -/
theorem unlines_take_isPrefix {text raw : List Char} {n : Nat}
    (h : (splitAtEach '\n' text)[n]? = some raw) :
    unlines ((splitAtEach '\n' text).take n) ++ raw <+: text := by
  induction text generalizing n raw with
  | nil =>
    cases n with
    | zero =>
      cases h
      exact List.prefix_refl _
    | succ n => cases h
  | cons c rest ih =>
    rw [splitAtEach] at h ⊢
    split at h
    · next hfeed =>
      obtain rfl := beq_iff_eq.1 hfeed
      rw [if_pos hfeed]
      cases n with
      | zero =>
        cases h
        exact List.nil_prefix
      | succ n =>
        rw [List.take_succ_cons, unlines_cons]
        exact (List.prefix_cons_inj '\n').2 (ih h)
    · next hother =>
      rw [if_neg hother]
      obtain ⟨piece, pieces, hpieces⟩ := List.exists_cons_of_ne_nil (splitAtEach_ne_nil '\n' rest)
      rw [hpieces] at h ih ⊢
      cases n with
      | zero =>
        cases h
        exact (List.prefix_cons_inj c).2 (ih (n := 0) rfl)
      | succ n =>
        have hprefix := ih (n := n + 1) h
        rw [List.take_succ_cons, unlines_cons] at hprefix ⊢
        exact (List.prefix_cons_inj c).2 hprefix

/-- Lines with a line feed between them and one behind the last. -/
theorem intercalate_feed {lines : List (List Char)} (h : lines ≠ []) :
    ['\n'].intercalate lines ++ ['\n'] = unlines lines := by
  induction lines with
  | nil => exact absurd rfl h
  | cons line rest ih =>
    cases rest with
    | nil => simp
    | cons next more =>
      rw [List.intercalate_cons_cons, List.append_assoc, List.append_assoc, ih (by simp),
        unlines_cons line]
      rfl

/-- Blocks of lines with a blank line between them and a line feed behind the last. -/
theorem intercalate_blocks {blocks : List (List (List Char))} (h : ∀ lines ∈ blocks, lines ≠ [])
    (hne : blocks ≠ []) :
    ['\n', '\n'].intercalate (blocks.map ['\n'].intercalate) ++ ['\n'] =
      unlines ([[]].intercalate blocks) := by
  induction blocks with
  | nil => exact absurd rfl hne
  | cons lines rest ih =>
    obtain ⟨hlines, hrest⟩ := List.forall_mem_cons.1 h
    cases rest with
    | nil => simpa using intercalate_feed hlines
    | cons next more =>
      have hblocks := ih hrest (by simp)
      simp only [List.map_cons] at hblocks ⊢
      rw [List.intercalate_cons_cons, List.intercalate_cons_cons, unlines_append, unlines_append,
        ← hblocks, ← intercalate_feed hlines]
      simp

/-! ### Bytes -/

theorem utf8Length_append (cs ds : List Char) :
    utf8Length (cs ++ ds) = utf8Length cs + utf8Length ds := by
  induction cs with
  | nil => simp [utf8Length]
  | cons c cs ih => simp only [List.cons_append, utf8Length, ih, Nat.add_assoc]

/-- The bytes of a text are those of its string. -/
theorem utf8ByteSize_ofList (cs : List Char) : (String.ofList cs).utf8ByteSize = utf8Length cs := by
  induction cs with
  | nil => rfl
  | cons c cs ih =>
    have hcons : String.ofList (c :: cs) = String.singleton c ++ String.ofList cs := by simp
    rw [hcons, String.utf8ByteSize_append, ih, String.utf8ByteSize_singleton]
    rfl

/-! ### Words -/

/-- A run without blanks is a word of its own. -/
theorem words_append {word : List Char} (hne : word ≠ []) (hword : ∀ c ∈ word, isBlank c = false)
    {rest : List Char} (hrest : ∀ c ∈ rest.head?, isBlank c) :
    words (word ++ rest) = word :: words rest := by
  induction word with
  | nil => exact absurd rfl hne
  | cons c more ih =>
    obtain ⟨hc, hmore⟩ := List.forall_mem_cons.1 hword
    cases more with
    | nil =>
      cases rest with
      | nil => simp [words, hc]
      | cons d tail =>
        have hd : isBlank d := hrest d rfl
        simp [words, hc, hd]
    | cons d tail =>
      have hd := hmore d List.mem_cons_self
      simp only [List.cons_append] at ih ⊢
      rw [words, ih (by simp) hmore]
      simp [hc, hd]

end VisualNovel.Text

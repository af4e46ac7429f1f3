import VisualNovel.Text.Words

/-!
Names and blanks. A blank is no character of a name, so cutting blanks leaves a name alone, and
a run of name characters ends at any other character.
-/

namespace VisualNovel.Text

/-- The code points of blanks. -/
def blankCodes : List Nat := [
  0x9, 0xa, 0xb, 0xc, 0xd, 0x1c, 0x1d, 0x1e, 0x1f, 0x20, 0x85, 0xa0, 0x1680, 0x2000, 0x2001,
  0x2002, 0x2003, 0x2004, 0x2005, 0x2006, 0x2007, 0x2008, 0x2009, 0x200a, 0x2028, 0x2029, 0x202f,
  0x205f, 0x3000]

theorem mem_blankCodes_of_isBlank {c : Char} (h : isBlank c) : c.toNat ∈ blankCodes := by
  simp only [isBlank, Bool.or_eq_true, Bool.and_eq_true, decide_eq_true_eq, beq_iff_eq] at h
  simp only [blankCodes, List.mem_cons, List.not_mem_nil, or_false]
  omega

/-- No character of a name is a blank. -/
theorem isBlank_eq_false_of_isNameChar {c : Char} (h : isNameChar c) : isBlank c = false := by
  cases hblank : isBlank c with
  | false => rfl
  | true =>
    have hnone : ∀ n ∈ blankCodes, isNameChar (Char.ofNat n) = false := by decide +kernel
    have hc := hnone c.toNat (mem_blankCodes_of_isBlank hblank)
    rw [Char.ofNat_toNat, h] at hc
    cases hc

theorem isNameChar_of_isNameStart {c : Char} (h : isNameStart c) : isNameChar c := by
  simp only [isNameStart, Bool.and_eq_true] at h
  exact h.1

theorem isDigit_eq_false_of_isNameStart {c : Char} (h : isNameStart c) : isDigit c = false := by
  simp only [isNameStart, Bool.and_eq_true, Bool.not_eq_true'] at h
  exact h.2

/-- A name has a first character, and all its characters are those of a name. -/
theorem isName_iff {cs : List Char} :
    isName cs ↔ (∃ c rest, cs = c :: rest ∧ isNameStart c) ∧ ∀ c ∈ cs, isNameChar c := by
  cases cs with
  | nil => simp [isName]
  | cons c rest =>
    simp only [isName, Bool.and_eq_true, List.all_eq_true, List.forall_mem_cons]
    constructor
    · rintro ⟨hstart, hrest⟩
      exact ⟨⟨c, rest, rfl, hstart⟩, isNameChar_of_isNameStart hstart, hrest⟩
    · rintro ⟨⟨c', rest', heq, hstart⟩, -, hrest⟩
      cases heq
      exact ⟨hstart, hrest⟩

theorem isNameChar_of_mem_name {cs : List Char} (h : isName cs) : ∀ c ∈ cs, isNameChar c :=
  (isName_iff.1 h).2

theorem ne_nil_of_isName {cs : List Char} (h : isName cs) : cs ≠ [] := by
  obtain ⟨⟨c, rest, rfl, -⟩, -⟩ := isName_iff.1 h
  simp

/-- A character that is not one of a name does not occur in a name. -/
theorem not_mem_name {cs : List Char} (h : isName cs) {c : Char} (hc : isNameChar c = false) :
    c ∉ cs := by
  intro hmem
  rw [isNameChar_of_mem_name h c hmem] at hc
  cases hc

/-! ### Runs of characters -/

/-- A text that a run of characters cannot go on into. -/
def Ends (p : Char → Bool) (rest : List Char) : Prop := ∀ c ∈ rest.head?, p c = false

@[simp] theorem ends_cons {p : Char → Bool} {c : Char} {rest : List Char} :
    Ends p (c :: rest) ↔ p c = false := by
  simp [Ends]

theorem Ends.of_prefix {p : Char → Bool} {cs ds : List Char} (h : Ends p ds) (hcs : cs <+: ds) :
    Ends p cs := by
  obtain ⟨rest, rfl⟩ := hcs
  cases cs with
  | nil => simp [Ends]
  | cons c cs => exact h

theorem takeWhile_append_of_ends {p : Char → Bool} {cs rest : List Char} (hcs : ∀ c ∈ cs, p c)
    (hrest : Ends p rest) : (cs ++ rest).takeWhile p = cs := by
  rw [List.takeWhile_append_of_pos hcs]
  cases rest with
  | nil => simp
  | cons c more => simp [ends_cons.1 hrest]

theorem dropWhile_append_of_ends {p : Char → Bool} {cs rest : List Char} (hcs : ∀ c ∈ cs, p c)
    (hrest : Ends p rest) : (cs ++ rest).dropWhile p = rest := by
  rw [List.dropWhile_append_of_pos hcs]
  cases rest with
  | nil => simp
  | cons c more => simp [ends_cons.1 hrest]

theorem ends_dropWhile (p : Char → Bool) (cs : List Char) : Ends p (cs.dropWhile p) := by
  intro c hc
  have hnot := List.head?_dropWhile_not p cs
  rw [Option.mem_def.1 hc] at hnot
  simpa using hnot

/-! ### Cutting blanks -/

theorem trimStart_of_ends {cs : List Char} (h : Ends isBlank cs) : trimStart cs = cs := by
  cases cs with
  | nil => rfl
  | cons c rest => simp [trimStart, ends_cons.1 h]

/-- Blanks in front of a text that begins with none are cut. -/
theorem trimStart_append {blanks cs : List Char} (hblanks : ∀ c ∈ blanks, isBlank c)
    (h : Ends isBlank cs) : trimStart (blanks ++ cs) = cs :=
  dropWhile_append_of_ends hblanks h

@[simp] theorem trimStart_blank {c : Char} {cs : List Char} (h : isBlank c) :
    trimStart (c :: cs) = trimStart cs := by
  simp [trimStart, h]

/-- A text that ends in a character which is no blank keeps its end. -/
theorem trimEnd_append_singleton {cs : List Char} {c : Char} (h : isBlank c = false) :
    trimEnd (cs ++ [c]) = cs ++ [c] := by
  simp [trimEnd, h]

/-- Only an end of the text is cut. -/
theorem trimEnd_prefix (cs : List Char) : trimEnd cs <+: cs := by
  obtain ⟨front, hfront⟩ := List.dropWhile_suffix (l := cs.reverse) isBlank
  refine ⟨front.reverse, ?_⟩
  have hcs := congrArg List.reverse hfront
  simpa [trimEnd] using hcs

theorem trimStart_name {cs rest : List Char} (h : isName cs) :
    trimStart (cs ++ rest) = cs ++ rest := by
  obtain ⟨⟨c, more, rfl, hstart⟩, -⟩ := isName_iff.1 h
  refine trimStart_of_ends ?_
  exact ends_cons.2 (isBlank_eq_false_of_isNameChar (isNameChar_of_isNameStart hstart))

theorem trimEnd_name {cs : List Char} (h : isName cs) : trimEnd cs = cs := by
  obtain ⟨front, last, rfl⟩ := List.eq_nil_or_concat cs |>.resolve_left (ne_nil_of_isName h)
  rw [List.concat_eq_append]
  refine trimEnd_append_singleton (isBlank_eq_false_of_isNameChar ?_)
  exact isNameChar_of_mem_name h last (by simp)

theorem trim_name {cs : List Char} (h : isName cs) : trim cs = cs := by
  have hstart : trimStart (cs ++ []) = cs ++ [] := trimStart_name h
  rw [List.append_nil] at hstart
  rw [trim, hstart, trimEnd_name h]

/-! ### Breaking at a mark -/

/-- A text breaks at the first mark in it. -/
theorem breakAt?_append {mark : Char} {cs rest : List Char} (h : mark ∉ cs) :
    breakAt? mark (cs ++ mark :: rest) = some (cs, rest) := by
  induction cs with
  | nil => simp [breakAt?]
  | cons c cs ih =>
    rw [List.mem_cons, not_or] at h
    have hne : (c == mark) = false := by simpa using fun heq => h.1 heq.symm
    simp [breakAt?, hne, ih h.2]

end VisualNovel.Text

/-- The text is a name. -/
def VisualNovel.IsName (s : String) : Prop := Text.isName s.toList

import VisualNovel.Proofs.Text.Names
import Mathlib.Data.List.TakeWhile

/-!
Blanks at the ends of a text. Cutting them leaves the same text whatever blanks there were, and a
run of characters that ends within a text ends there whatever stands behind it.
-/

namespace VisualNovel.Text

/-! ### Runs -/

variable {p : Char → Bool} {cs : List Char} {c : Char}

theorem mem_dropWhile_of_mem (hc : c ∈ cs) (hstop : p c = false) : c ∈ cs.dropWhile p := by
  rw [← List.takeWhile_append_dropWhile (p := p) (l := cs), List.mem_append] at hc
  rcases hc with htaken | hleft
  · have hrun : p c := List.all_eq_true.1 List.all_takeWhile c htaken
    rw [hstop] at hrun
    cases hrun
  · exact hleft

/-- A run that ends within a text leaves what stands behind the text alone. -/
theorem dropWhile_append_of_mem (hc : c ∈ cs) (hstop : p c = false) (rest : List Char) :
    (cs ++ rest).dropWhile p = cs.dropWhile p ++ rest := by
  have hne : (cs.dropWhile p).isEmpty = false :=
    List.isEmpty_eq_false_iff.2 (List.ne_nil_of_mem (mem_dropWhile_of_mem hc hstop))
  rw [List.dropWhile_append, hne]
  rfl

theorem takeWhile_append_of_mem (hc : c ∈ cs) (hstop : p c = false) (rest : List Char) :
    (cs ++ rest).takeWhile p = cs.takeWhile p := by
  have hsplit := List.takeWhile_append_dropWhile (p := p) (l := cs ++ rest)
  rw [dropWhile_append_of_mem hc hstop, ← List.append_assoc] at hsplit
  have hfront := List.append_cancel_right hsplit
  exact List.append_cancel_right (hfront.trans List.takeWhile_append_dropWhile.symm)

/-! ### Blanks in front -/

/-- What is cut off the front of a text is blank. -/
theorem exists_blanks_trimStart (cs : List Char) :
    ∃ blanks, cs = blanks ++ trimStart cs ∧ ∀ c ∈ blanks, isBlank c :=
  ⟨cs.takeWhile isBlank, List.takeWhile_append_dropWhile.symm,
    List.all_eq_true.1 List.all_takeWhile⟩

theorem trimStart_append_blanks {blanks : List Char} (hblanks : ∀ c ∈ blanks, isBlank c)
    (cs : List Char) : trimStart (blanks ++ cs) = trimStart cs :=
  List.dropWhile_append_of_pos hblanks

/-- A text is cut to nothing exactly if it is blank. -/
theorem trimStart_eq_nil_iff : trimStart cs = [] ↔ ∀ c ∈ cs, isBlank c :=
  List.dropWhile_eq_nil_iff

/-- What is left of a text begins with a character that is no blank. -/
theorem exists_blanks_of_trimStart {rest : List Char} (h : trimStart cs = c :: rest) :
    isBlank c = false ∧ ∃ blanks, cs = blanks ++ c :: rest ∧ ∀ d ∈ blanks, isBlank d := by
  have hends := ends_dropWhile isBlank cs
  refine ⟨hends c (by rw [show cs.dropWhile isBlank = c :: rest from h]; rfl), ?_⟩
  obtain ⟨blanks, hcs, hblanks⟩ := exists_blanks_trimStart cs
  exact ⟨blanks, h ▸ hcs, hblanks⟩

/-! ### Blanks behind -/

theorem trimEnd_append_blanks {blanks : List Char} (hblanks : ∀ c ∈ blanks, isBlank c)
    (cs : List Char) : trimEnd (cs ++ blanks) = trimEnd cs := by
  have hreversed : ∀ c ∈ blanks.reverse, isBlank c := fun c hc => hblanks c (List.mem_reverse.1 hc)
  unfold trimEnd
  rw [List.reverse_append, List.dropWhile_append_of_pos hreversed]

/-- What is cut off the end of a text is blank. -/
theorem exists_blanks_trimEnd (cs : List Char) :
    ∃ blanks, cs = trimEnd cs ++ blanks ∧ ∀ c ∈ blanks, isBlank c := by
  obtain ⟨blanks, hreverse, hblanks⟩ := exists_blanks_trimStart cs.reverse
  refine ⟨blanks.reverse, ?_, fun c hc => hblanks c (List.mem_reverse.1 hc)⟩
  have hcs := congrArg List.reverse hreverse
  rwa [List.reverse_reverse, List.reverse_append] at hcs

/-! ### Blanks at both ends -/

theorem trim_blanks_append {blanks : List Char} (hblanks : ∀ c ∈ blanks, isBlank c)
    (cs : List Char) : trim (blanks ++ cs) = trim cs := by
  rw [trim, trimStart_append_blanks hblanks, trim]

theorem trim_append_blanks {blanks : List Char} (hblanks : ∀ c ∈ blanks, isBlank c)
    (cs : List Char) : trim (cs ++ blanks) = trim cs := by
  unfold trim
  cases htrim : trimStart cs with
  | nil =>
    have hall := List.forall_mem_append.2 ⟨trimStart_eq_nil_iff.1 htrim, hblanks⟩
    rw [trimStart_eq_nil_iff.2 hall]
  | cons c rest =>
    obtain ⟨hc, front, hcs, -⟩ := exists_blanks_of_trimStart htrim
    have hmem : c ∈ cs := by simp [hcs]
    have hkept : trimStart (cs ++ blanks) = trimStart cs ++ blanks :=
      dropWhile_append_of_mem hmem hc blanks
    rw [hkept, htrim, trimEnd_append_blanks hblanks]

theorem trim_eq_nil (hcs : ∀ c ∈ cs, isBlank c) : trim cs = [] := by
  rw [trim, trimStart_eq_nil_iff.2 hcs]
  rfl

/-- Of a text only the end behind its last character that is no blank is cut. -/
theorem trimEnd_append_cons (hc : isBlank c = false) (front rest : List Char) :
    trimEnd (front ++ c :: rest) = front ++ trimEnd (c :: rest) := by
  have hmem : c ∈ (c :: rest).reverse := List.mem_reverse.2 List.mem_cons_self
  unfold trimEnd
  rw [List.reverse_append, dropWhile_append_of_mem hmem hc, List.reverse_append,
    List.reverse_reverse]

theorem head?_trimEnd (hc : isBlank c = false) (rest : List Char) :
    (trimEnd (c :: rest)).head? = some c := by
  obtain ⟨blanks, hcs, hblanks⟩ := exists_blanks_trimEnd (c :: rest)
  cases htrim : trimEnd (c :: rest) with
  | nil =>
    rw [htrim, List.nil_append] at hcs
    have hblank := hblanks c (hcs ▸ List.mem_cons_self)
    rw [hc] at hblank
    cases hblank
  | cons d more =>
    rw [htrim] at hcs
    cases hcs
    rfl

/-- A text begins as what is left of it does, unless it begins with a blank. -/
theorem head?_trim (hc : isBlank c = false) (rest : List Char) :
    (trim (c :: rest)).head? = some c := by
  rw [trim, trimStart_of_ends (ends_cons.2 hc), head?_trimEnd hc]

/-! ### Breaking at a mark -/

/-- A text breaks at the first mark in it, and nowhere else. -/
theorem breakAt?_eq_some_iff {mark : Char} {before after : List Char} :
    breakAt? mark cs = some (before, after) ↔ mark ∉ before ∧ cs = before ++ mark :: after := by
  refine ⟨fun h => ?_, fun ⟨hbefore, hcs⟩ => hcs ▸ breakAt?_append hbefore⟩
  induction cs generalizing before after with
  | nil => simp [breakAt?] at h
  | cons c cs ih =>
    rw [breakAt?] at h
    split at h
    · next hmark =>
      cases h
      exact ⟨List.not_mem_nil, by rw [beq_iff_eq.1 hmark]; rfl⟩
    · next hmark =>
      obtain ⟨⟨b, a⟩, hbreak, heq⟩ := Option.map_eq_some_iff.1 h
      cases heq
      obtain ⟨hnot, rfl⟩ := ih hbreak
      refine ⟨?_, rfl⟩
      rw [List.mem_cons, not_or]
      exact ⟨fun heq => hmark (by simp [heq]), hnot⟩

end VisualNovel.Text

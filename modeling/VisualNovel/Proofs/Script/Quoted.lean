import VisualNovel.Proofs.Script.Spelling
import VisualNovel.Script.Printer

/-!
A quoted expression reads back as the atoms that were written, and what is read is in normal form:
no literal is empty and no two stand side by side.
-/

namespace VisualNovel

namespace Expression

/-- An expression that `next` may stand in front of: no literal in front of a literal. -/
def MayFollow (next : Segment) (e : Expression) : Prop :=
  ∀ text, next = .literal text → ∀ s ∈ e.head?, ∀ text', s ≠ .literal text'

/-- No literal is empty, and no two literals stand side by side. -/
def IsNormal : Expression → Prop
  | [] => True
  | s :: rest => s ≠ .literal "" ∧ MayFollow s rest ∧ IsNormal rest

@[simp] theorem atoms_nil : atoms [] = [] := rfl

@[simp] theorem atoms_cons (s : Segment) (e : Expression) : atoms (s :: e) = s.atoms ++ e.atoms :=
  rfl

/-- The characters gathered so far and those of a literal are gathered together. -/
theorem ofAtoms_go_chars (run cs : List Char) (rest : List Atom) :
    ofAtoms.go run (cs.map .char ++ rest) = ofAtoms.go (cs.reverse ++ run) rest := by
  induction cs generalizing run with
  | nil => rfl
  | cons c cs ih =>
    rw [List.map_cons, List.cons_append, ofAtoms.go, ih, List.reverse_cons, List.append_assoc]
    rfl

theorem gathered_of_ne_nil {cs : List Char} (h : cs ≠ []) :
    gathered cs = [.literal (String.ofList cs)] := by
  cases cs with
  | nil => exact absurd rfl h
  | cons c rest => rfl

/-- What is gathered comes first, unless the atoms go on with a character. -/
theorem ofAtoms_go_eq (run : List Char) {rest : List Atom} (h : ∀ c, rest.head? ≠ some (.char c)) :
    ofAtoms.go run rest = gathered run.reverse ++ ofAtoms.go [] rest := by
  cases rest with
  | nil => simp [ofAtoms.go, gathered]
  | cons a more =>
    obtain c | name := a
    · exact absurd rfl (h c)
    · simp [ofAtoms.go, gathered]

/-- An expression in normal form is the one of its atoms. -/
theorem normalize_eq_self {e : Expression} (h : e.IsNormal) : e.normalize = e := by
  unfold normalize ofAtoms
  induction e with
  | nil => rfl
  | cons s rest ih =>
    obtain ⟨hne, hfollow, hrest⟩ := h
    obtain text | name := s
    · have htext : text.toList ≠ [] := by
        intro hempty
        exact hne (congrArg Segment.literal (String.toList_injective hempty))
      have hhead : ∀ c, (atoms rest).head? ≠ some (.char c) := by
        intro c hc
        cases rest with
        | nil => simp [atoms] at hc
        | cons s' more =>
          obtain text' | name := s'
          · exact hfollow text rfl _ rfl text' rfl
          · simp [Segment.atoms] at hc
      rw [atoms_cons, Segment.atoms, ofAtoms_go_chars, ofAtoms_go_eq _ hhead, ih hrest,
        List.append_nil, List.reverse_reverse, gathered_of_ne_nil htext, String.ofList_toList]
      rfl
    · show ofAtoms.go [] (.variable name :: atoms rest) = _
      rw [ofAtoms.go, ih hrest]
      rfl

/-- Gathering atoms gives an expression in normal form. -/
theorem ofAtoms_isNormal (atoms : List Atom) : (ofAtoms atoms).IsNormal := by
  suffices h : ∀ run, IsNormal (ofAtoms.go run atoms) from h []
  have hgathered (cs : List Char) {e : Expression} (he : e.IsNormal)
      (hhead : ∀ s ∈ e.head?, ∀ text, s ≠ .literal text) : IsNormal (gathered cs ++ e) := by
    cases cs with
    | nil => exact he
    | cons c rest =>
      refine ⟨?_, fun _ _ => hhead, he⟩
      intro heq
      have hlist := congrArg String.toList (Segment.literal.inj heq)
      simp at hlist
  induction atoms with
  | nil =>
    intro run
    have hrun := hgathered run.reverse (e := []) trivial (by simp)
    rwa [List.append_nil] at hrun
  | cons a rest ih =>
    intro run
    obtain c | name := a
    · exact ih (c :: run)
    · refine hgathered run.reverse ⟨by simp, by simp [MayFollow], ih []⟩ ?_
      simp

@[simp] theorem variableNames_append (e e' : Expression) :
    variableNames (e ++ e') = e.variableNames ++ e'.variableNames :=
  List.filterMap_append

theorem variableNames_gathered (cs : List Char) : variableNames (gathered cs) = [] := by
  cases cs <;> rfl

/-- The variables of an expression are those among its atoms. -/
theorem mem_variableNames_ofAtoms {atoms : List Atom} {name : String} :
    name ∈ (ofAtoms atoms).variableNames ↔ .variable name ∈ atoms := by
  suffices h : ∀ run, name ∈ variableNames (ofAtoms.go run atoms) ↔ .variable name ∈ atoms from
    h []
  induction atoms with
  | nil =>
    intro run
    show name ∈ variableNames (gathered run.reverse) ↔ _
    simp [variableNames_gathered]
  | cons a rest ih =>
    intro run
    obtain c | other := a
    · simpa [ofAtoms.go] using ih (c :: run)
    · rw [ofAtoms.go, variableNames_append, variableNames_gathered, List.nil_append]
      show name ∈ other :: variableNames (ofAtoms.go [] rest) ↔ _
      rw [List.mem_cons, ih [], List.mem_cons, Atom.variable.injEq]

/-- An expression that can be written: in normal form, with names for variables. -/
structure WellFormed (e : Expression) : Prop where
  normal : e.IsNormal
  variables_named : ∀ name ∈ e.variableNames, IsName name

end Expression

/-- A variable among atoms has a name. -/
def Atom.Named : Atom → Prop
  | .char _ => True
  | .variable name => IsName name

/-- Only the variables of an expression need names. -/
theorem Expression.atoms_named {e : Expression} (h : ∀ name ∈ e.variableNames, IsName name) :
    ∀ a ∈ e.atoms, a.Named := by
  intro a ha
  obtain c | name := a
  · trivial
  · obtain ⟨s, hs, hmem⟩ := List.mem_flatMap.1 ha
    obtain text | other := s
    · simp [Segment.atoms] at hmem
    · obtain rfl : name = other := by simpa [Segment.atoms] using hmem
      exact h name (List.mem_filterMap.2 ⟨_, hs, rfl⟩)

/-- The atoms of a well-formed expression. -/
theorem Expression.WellFormed.atoms_named {e : Expression} (h : e.WellFormed) :
    ∀ a ∈ e.atoms, a.Named :=
  Expression.atoms_named h.variables_named

namespace Script

open Text

variable {text tail : List Char} {atoms : List Atom}

/-- A character is spelled as it is written. -/
theorem spells_escape (c : Char) (h : Spells true text atoms) :
    Spells true (escape c ++ text) (.char c :: atoms) := by
  unfold escape
  split
  · next hc =>
    obtain rfl := beq_iff_eq.1 hc
    exact .escape rfl h
  split
  · next hc =>
    simp only [Bool.or_eq_true, beq_iff_eq] at hc
    rcases hc with ((rfl | rfl) | rfl) | rfl <;> exact .escape rfl h
  · next hc =>
    simp only [Bool.or_eq_true, beq_iff_eq, not_or] at hc
    obtain ⟨⟨⟨hquote, hslash⟩, hopen⟩, hclose⟩ := hc
    exact .plain ⟨hslash, hopen, hclose, fun _ => hquote⟩ h

/-- A name in braces is the variable of that name. -/
theorem spells_variable {name : String} (hname : IsName name) (h : Spells true text atoms) :
    Spells true (writeAtom (.variable name) ++ text) (.variable name :: atoms) := by
  have htrim : trim name.toList = name.toList := trim_name hname
  have hclose : '}' ∉ name.toList := not_mem_name hname (by decide)
  have hreference := Spells.reference hclose (htrim.symm ▸ hname) h
  rw [htrim, String.ofList_toList] at hreference
  simpa only [writeAtom, List.cons_append, List.append_assoc, List.nil_append] using hreference

/-- Atoms are spelled as they are written. -/
theorem spells_flatMap_writeAtom (hatoms : ∀ a ∈ atoms, a.Named) :
    Spells true (atoms.flatMap writeAtom) atoms := by
  induction atoms with
  | nil => exact .nil
  | cons a atoms ih =>
    have hrest := ih fun a ha => hatoms a (List.mem_cons_of_mem _ ha)
    have hnamed := hatoms a List.mem_cons_self
    rw [List.flatMap_cons]
    obtain c | name := a
    · exact spells_escape c hrest
    · exact spells_variable hnamed hrest

/-- A written expression reads back in normal form. -/
theorem readQuoted_written {e : Expression} (h : ∀ a ∈ e.atoms, a.Named) (rest : List Char) :
    readQuoted (e.written ++ rest) = .ok (e.normalize, rest) :=
  readQuoted_eq_ok_iff.2 ⟨e.atoms.flatMap writeAtom, e.atoms, by simp [Expression.written],
    spells_flatMap_writeAtom h, rfl⟩

/-- A text of its own reads back as the literal of that text. -/
theorem readQuoted_quotedText (text : String) (rest : List Char) :
    readQuoted ((quotedText text).toList ++ rest) =
      .ok (Expression.normalize [.literal text], rest) := by
  unfold quotedText Expression.source
  rw [String.toList_ofList]
  exact readQuoted_written (Expression.atoms_named (by simp [Expression.variableNames])) rest

/-- Variables that are spelled have names. -/
theorem Spells.named {quoted : Bool} (h : Spells quoted text atoms) : ∀ a ∈ atoms, a.Named := by
  induction h with
  | nil => simp
  | plain _ _ ih => exact List.forall_mem_cons.2 ⟨trivial, ih⟩
  | escape _ _ ih => exact List.forall_mem_cons.2 ⟨trivial, ih⟩
  | reference _ hname _ ih =>
    refine List.forall_mem_cons.2 ⟨?_, ih⟩
    show isName (String.ofList _).toList
    rw [String.toList_ofList]
    exact hname

/-- A quoted expression that is read is well formed. -/
theorem readQuoted_wellFormed {e : Expression} (h : readQuoted text = .ok (e, tail)) :
    e.WellFormed := by
  obtain ⟨body, atoms, -, hbody, rfl⟩ := readQuoted_eq_ok_iff.1 h
  refine ⟨Expression.ofAtoms_isNormal atoms, fun name hname => ?_⟩
  exact hbody.named _ (Expression.mem_variableNames_ofAtoms.1 hname)

end Script

end VisualNovel

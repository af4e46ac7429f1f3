import VisualNovel.Proofs.Script.Reading
import VisualNovel.Proofs.Text.Trimming
import VisualNovel.Script.QuotedAt

/-!
The grammar of expressions. A text spells atoms: plain characters and escapes spell characters, and
a name in braces spells a variable. Between quotes the same is spelled by the same text, only that
a plain character is no quote there. Scanning takes the text up to its end or up to the closing
quote, and accepts what spells something.
-/

namespace VisualNovel.Script

open Text

/-- A character that spells itself. Between quotes that is no quote. -/
structure Literally (quoted : Bool) (c : Char) : Prop where
  no_backslash : c ≠ '\\'
  no_open_brace : c ≠ '{'
  no_close_brace : c ≠ '}'
  no_quote : quoted → c ≠ '"'

/-- The text spells these atoms, between quotes or without any. -/
inductive Spells (quoted : Bool) : List Char → List Atom → Prop
  | nil : Spells quoted [] []
  | plain {c : Char} {text : List Char} {atoms : List Atom} (hc : Literally quoted c)
      (hrest : Spells quoted text atoms) : Spells quoted (c :: text) (.char c :: atoms)
  | escape {e d : Char} {text : List Char} {atoms : List Atom} (hd : unescape? e = some d)
      (hrest : Spells quoted text atoms) :
      Spells quoted ('\\' :: e :: text) (.char d :: atoms)
  | reference {inside text : List Char} {atoms : List Atom} (hinside : '}' ∉ inside)
      (hname : isName (trim inside)) (hrest : Spells quoted text atoms) :
      Spells quoted ('{' :: (inside ++ '}' :: text))
        (.variable (String.ofList (trim inside)) :: atoms)

/-- What ends a scan: the closing quote, if a quote is open, and else the end of the text. -/
inductive Closes : Option (List Char) → List Char → List Char → Prop
  | atEnd : Closes none [] []
  | atQuote (opening tail : List Char) : Closes (some opening) ('"' :: tail) tail

variable {quoted : Bool} {opening : Option (List Char)} {text body rest tail : List Char}
  {atoms : List Atom}

theorem Spells.scan_eq (h : Spells opening.isSome body atoms) (hcloses : Closes opening rest tail) :
    scan opening (body ++ rest) = .ok (atoms, tail) := by
  induction h with
  | nil =>
    cases hcloses with
    | atEnd => rw [List.append_nil, scan.eq_def]
    | atQuote opening tail =>
      rw [List.nil_append, scan.eq_def]
      simp
  | @plain c text atoms hc _ ih =>
    have hquote : (c == '"' && opening.isSome) = false := by
      cases hopen : opening.isSome with
      | false => simp
      | true => simpa using hc.no_quote hopen
    rw [List.cons_append, scan.eq_def]
    simp [hquote, hc.no_backslash, hc.no_open_brace, hc.no_close_brace, ih, Except.map, consAtom]
  | escape hd _ ih =>
    rw [List.cons_append, List.cons_append, scan.eq_def]
    simp [hd, ih, Except.map, consAtom]
  | @reference inside text atoms hinside hname _ ih =>
    have hbreak : breakAt? '}' (inside ++ '}' :: (text ++ rest)) = some (inside, text ++ rest) :=
      breakAt?_append hinside
    rw [List.cons_append, List.append_assoc, List.cons_append, scan.eq_def]
    simp only [Char.reduceBEq, Bool.false_and, Bool.false_eq_true, if_false, if_true]
    split
    · next hnone => simp [hbreak] at hnone
    · next inside' after hsome =>
      rw [hbreak, Option.some.injEq, Prod.mk.injEq] at hsome
      obtain ⟨rfl, rfl⟩ := hsome
      rw [if_pos hname, ih]
      rfl

theorem exists_spells_of_scan (h : scan opening text = .ok (atoms, tail)) :
    ∃ body rest, text = body ++ rest ∧ Spells opening.isSome body atoms ∧
      Closes opening rest tail := by
  fun_induction scan opening text generalizing atoms with
  | case1 hnone =>
    cases h
    subst hnone
    exact ⟨[], [], rfl, .nil, .atEnd⟩
  | case2 => cases h
  | case3 c rest hquote =>
    cases h
    obtain ⟨hc, hopen⟩ := Bool.and_eq_true_iff.1 hquote
    obtain rfl := beq_iff_eq.1 hc
    obtain ⟨opened, rfl⟩ := Option.isSome_iff_exists.1 hopen
    exact ⟨[], _, rfl, .nil, .atQuote opened _⟩
  | case4 => cases h
  | case5 => cases h
  | case6 c hquote hslash e after d hd ih =>
    obtain ⟨more, hmore, rfl⟩ := eq_ok_of_map_consAtom h
    obtain ⟨body, rest, rfl, hbody, hcloses⟩ := ih hmore
    obtain rfl := beq_iff_eq.1 hslash
    exact ⟨_, rest, rfl, hbody.escape hd, hcloses⟩
  | case7 => cases h
  | case8 c rest hquote hslash hbrace inside after hbreak hname ih =>
    obtain ⟨more, hmore, rfl⟩ := eq_ok_of_map_consAtom h
    obtain ⟨body, rest, rfl, hbody, hcloses⟩ := ih hmore
    obtain ⟨hinside, rfl⟩ := breakAt?_eq_some_iff.1 hbreak
    obtain rfl := beq_iff_eq.1 hbrace
    exact ⟨_, rest, by simp, hbody.reference hinside hname, hcloses⟩
  | case9 => cases h
  | case10 => cases h
  | case11 c rest hquote hslash hbrace hclose ih =>
    obtain ⟨more, hmore, rfl⟩ := eq_ok_of_map_consAtom h
    obtain ⟨body, rest, rfl, hbody, hcloses⟩ := ih hmore
    have hc : Literally opening.isSome c :=
      { no_backslash := by simpa using hslash
        no_open_brace := by simpa using hbrace
        no_close_brace := by simpa using hclose
        no_quote := fun hopen => by simpa [hopen] using hquote }
    exact ⟨_, rest, rfl, hbody.plain hc, hcloses⟩

/-- Scanning accepts what the grammar does. -/
theorem scan_eq_ok_iff : scan opening text = .ok (atoms, tail) ↔
    ∃ body rest, text = body ++ rest ∧ Spells opening.isSome body atoms ∧
      Closes opening rest tail :=
  ⟨exists_spells_of_scan, by
    rintro ⟨body, rest, rfl, hbody, hcloses⟩
    exact hbody.scan_eq hcloses⟩

/-- A text of its own is scanned to its end. -/
theorem scan_none_eq_ok_iff :
    scan none text = .ok (atoms, tail) ↔ Spells false text atoms ∧ tail = [] := by
  rw [scan_eq_ok_iff]
  constructor
  · rintro ⟨body, rest, rfl, hbody, hcloses⟩
    cases hcloses
    exact ⟨by rwa [List.append_nil], rfl⟩
  · rintro ⟨hbody, rfl⟩
    exact ⟨text, [], (List.append_nil _).symm, hbody, .atEnd⟩

/-- A quoted text is what spells the atoms, and the closing quote. -/
theorem scan_some_eq_ok_iff {opened : List Char} :
    scan (some opened) text = .ok (atoms, tail) ↔
      ∃ body, text = body ++ '"' :: tail ∧ Spells true body atoms := by
  rw [scan_eq_ok_iff]
  constructor
  · rintro ⟨body, rest, rfl, hbody, hcloses⟩
    cases hcloses
    exact ⟨body, rfl, hbody⟩
  · rintro ⟨body, rfl, hbody⟩
    exact ⟨body, _, rfl, hbody, .atQuote opened tail⟩

theorem readQuoted_eq_ok_iff {e : Expression} :
    readQuoted text = .ok (e, tail) ↔
      ∃ body atoms, text = '"' :: (body ++ '"' :: tail) ∧ Spells true body atoms ∧
        Expression.ofAtoms atoms = e := by
  unfold readQuoted
  split
  · next rest =>
    simp only [map_eq_ok, Prod.exists, Prod.mk.injEq, List.cons.injEq, true_and]
    constructor
    · rintro ⟨atoms, tail', hscan, rfl, rfl⟩
      obtain ⟨body, rfl, hbody⟩ := scan_some_eq_ok_iff.1 hscan
      exact ⟨body, atoms, rfl, hbody, rfl⟩
    · rintro ⟨body, atoms, rfl, hbody, rfl⟩
      exact ⟨atoms, tail, scan_some_eq_ok_iff.2 ⟨body, rfl, hbody⟩, rfl, rfl⟩
  · next hnot =>
    refine ⟨(nomatch ·), ?_⟩
    rintro ⟨body, atoms, rfl, -⟩
    exact absurd rfl (hnot _)

theorem parseExpression_eq_ok_iff {text : String} {e : Expression} :
    parseExpression text = .ok e ↔
      ∃ atoms, Spells false text.toList atoms ∧ Expression.ofAtoms atoms = e := by
  unfold parseExpression
  constructor
  · intro h
    split at h
    · next atoms tail hscan =>
      cases h
      exact ⟨atoms, (scan_none_eq_ok_iff.1 hscan).1, rfl⟩
    · cases h
  · rintro ⟨atoms, hspells, rfl⟩
    rw [scan_none_eq_ok_iff.2 ⟨hspells, rfl⟩]

/-! ### Within a line -/

section Line

variable {source : Option String} {line : Line} {start stop : Nat} {e : Expression}

/-- A quoted expression within a line ends behind its closing quote. -/
theorem readForward_eq_ok_iff :
    readForward source line start = .ok (e, stop) ↔
      ∃ body atoms tail, line.text.drop start = '"' :: (body ++ '"' :: tail) ∧
        Spells true body atoms ∧ Expression.ofAtoms atoms = e ∧ start + (body.length + 2) = stop := by
  have hlength (body tail : List Char) :
      ('"' :: (body ++ '"' :: tail)).length - tail.length = body.length + 2 := by
    simp only [List.length_cons, List.length_append]
    omega
  simp only [readForward]
  constructor
  · intro h
    split at h
    · next e' tail hread =>
      cases h
      obtain ⟨body, atoms, htext, hbody, rfl⟩ := readQuoted_eq_ok_iff.1 hread
      exact ⟨body, atoms, tail, htext, hbody, rfl, by rw [htext, hlength]⟩
    · cases h
  · rintro ⟨body, atoms, tail, htext, hbody, rfl, rfl⟩
    have hread : readQuoted ('"' :: (body ++ '"' :: tail)) =
        .ok (Expression.ofAtoms atoms, tail) :=
      readQuoted_eq_ok_iff.2 ⟨body, atoms, rfl, hbody, rfl⟩
    simp only [htext, hread, hlength]

theorem readQuotedAt_natCast_eq_ok_iff :
    readQuotedAt source line start = .ok (e, (stop : Int)) ↔
      readForward source line start = .ok (e, stop) := by
  rw [readQuotedAt, if_pos (Int.natCast_nonneg _), Int.toNat_natCast]
  cases readForward source line start with
  | error flaw => simp only [Except.map, Except.mapError, reduceCtorEq]
  | ok out =>
    simp only [Except.map, Except.mapError, Except.ok.injEq, Prod.ext_iff, Int.ofNat_inj]

/-- A line that is a text between quotes is read to its end if the text spells something there. -/
theorem readQuotedAt_quoted_eq_ok_iff {number offset : Int} {s : String} :
    readQuotedAt source ⟨number, ("\"" ++ s ++ "\"").toList, offset⟩ 0 = .ok (e, s.length + 2) ↔
      ∃ atoms, Spells true s.toList atoms ∧ Expression.ofAtoms atoms = e := by
  have hline : ("\"" ++ s ++ "\"").toList = '"' :: (s.toList ++ ['"']) := by simp
  refine (@readQuotedAt_natCast_eq_ok_iff source _ 0 (s.length + 2) e).trans ?_
  rw [readForward_eq_ok_iff, hline]
  constructor
  · rintro ⟨body, atoms, tail, htext, hbody, rfl, hstop⟩
    have hends := List.append_inj_left (List.cons.inj htext).2
      (by rw [String.length_toList]; omega)
    exact ⟨atoms, hends ▸ hbody, rfl⟩
  · rintro ⟨atoms, hspells, rfl⟩
    exact ⟨s.toList, atoms, [], rfl, hspells, rfl, by rw [String.length_toList]; omega⟩

end Line

/-! ### Between quotes and without -/

/-- What spells something between quotes spells it without them. -/
theorem Spells.unquoted (h : Spells true text atoms) : Spells false text atoms := by
  induction h with
  | nil => exact .nil
  | plain hc _ ih => exact .plain { hc with no_quote := nofun } ih
  | escape hd _ ih => exact .escape hd ih
  | reference hinside hname _ ih => exact .reference hinside hname ih

/-- What has no quote in it can be put between quotes. -/
theorem Spells.between_quotes (h : Spells false text atoms) (hquote : '"' ∉ text) :
    Spells true text atoms := by
  induction h with
  | nil => exact .nil
  | plain hc _ ih =>
    rw [List.mem_cons, not_or] at hquote
    exact .plain { hc with no_quote := fun _ => Ne.symm hquote.1 } (ih hquote.2)
  | escape hd _ ih =>
    rw [List.mem_cons, not_or, List.mem_cons, not_or] at hquote
    exact .escape hd (ih hquote.2.2)
  | reference hinside hname _ ih =>
    simp only [List.mem_cons, List.mem_append, not_or] at hquote
    exact .reference hinside hname (ih hquote.2.2.2)

/-- The two ways of scanning agree. What is read between quotes, up to a last quote and no earlier
    one, parses to the same expression without them, and a text without a quote in it parses to
    exactly the expression that is read when it is put between quotes. -/
theorem readQuotedAt_parseExpression (source : Option String) (number offset : Int) (s : String) :
    (∀ e, readQuotedAt source ⟨number, ("\"" ++ s ++ "\"").toList, offset⟩ 0 =
        .ok (e, s.length + 2) → parseExpression s = .ok e) ∧
      ('"' ∉ s.toList → ∀ e, parseExpression s = .ok e ↔
        readQuotedAt source ⟨number, ("\"" ++ s ++ "\"").toList, offset⟩ 0 =
          .ok (e, s.length + 2)) := by
  have hread (e : Expression) :
      readQuotedAt source ⟨number, ("\"" ++ s ++ "\"").toList, offset⟩ 0 = .ok (e, s.length + 2) ↔
        ∃ atoms, Spells true s.toList atoms ∧ Expression.ofAtoms atoms = e :=
    readQuotedAt_quoted_eq_ok_iff
  simp only [hread, parseExpression_eq_ok_iff]
  refine ⟨?_, fun hquote e => ⟨?_, ?_⟩⟩
  · rintro e ⟨atoms, hspells, rfl⟩
    exact ⟨atoms, hspells.unquoted, rfl⟩
  · rintro ⟨atoms, hspells, rfl⟩
    exact ⟨atoms, hspells.between_quotes hquote, rfl⟩
  · rintro ⟨atoms, hspells, rfl⟩
    exact ⟨atoms, hspells.unquoted, rfl⟩

/-- A text with a quote in it, which is escaped, and one without. -/
theorem readQuotedAt_parseExpression_greeting :
    readQuotedAt none ⟨1, "\"Say \\\"hi\\\"\"".toList, 0⟩ 0 = .ok ([.literal "Say \"hi\""], 12) ∧
      parseExpression "Say \\\"hi\\\"" = .ok [.literal "Say \"hi\""] ∧
      '"' ∉ "Hi \x7b name \x7d\\n".toList ∧
      parseExpression "Hi \x7b name \x7d\\n" =
        .ok [.literal "Hi ", .variable "name", .literal "\n"] ∧
      readQuotedAt none ⟨1, "\"Hi \x7b name \x7d\\n\"".toList, 0⟩ 0 =
        .ok ([.literal "Hi ", .variable "name", .literal "\n"], 15) := by
  have hescaped : readQuotedAt none ⟨1, "\"Say \\\"hi\\\"\"".toList, 0⟩ 0 =
      .ok ([.literal "Say \"hi\""], 12) := by decide +kernel
  have hparse : parseExpression "Hi \x7b name \x7d\\n" =
      .ok [.literal "Hi ", .variable "name", .literal "\n"] := by decide +kernel
  have hquote : '"' ∉ "Hi \x7b name \x7d\\n".toList := by decide
  exact ⟨hescaped, (readQuotedAt_parseExpression none 1 0 "Say \\\"hi\\\"").1 _ hescaped, hquote,
    hparse, ((readQuotedAt_parseExpression none 1 0 _).2 hquote _).1 hparse⟩

end VisualNovel.Script

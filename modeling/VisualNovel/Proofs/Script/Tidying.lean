import VisualNovel.Proofs.Script.Quoted
import VisualNovel.Script.Evaluation
import Mathlib.Logic.Relation

/-!
Expressions with literals of any kind, empty ones and neighbours included. Dropping an empty
literal and joining two neighbours changes neither the atoms of an expression nor what it evaluates
to, and ends at one normal form, the one that is read back from the source of the expression
wherever that stands. Main statement: `readQuotedAt_source`.
-/

namespace VisualNovel

namespace Expression

/-! ### Tidying -/

/-- An empty literal is dropped, or two literals side by side are joined. -/
inductive Tidies : Expression → Expression → Prop
  | drop (e : Expression) : Tidies (.literal "" :: e) e
  | join (text text' : String) (e : Expression) :
      Tidies (.literal text :: .literal text' :: e) (.literal (text ++ text') :: e)
  | later (s : Segment) {e e' : Expression} : Tidies e e' → Tidies (s :: e) (s :: e')

/-- Tidying leads from `e` to `n`, where no literal is empty and no two stand side by side. -/
structure TidiesTo (e n : Expression) : Prop where
  reached : Relation.ReflTransGen Tidies e n
  isNormal : n.IsNormal

variable {e e' n : Expression}

theorem Tidies.atoms_eq (h : e.Tidies e') : e'.atoms = e.atoms := by
  induction h with
  | drop e => simp [Segment.atoms]
  | join text text' e => simp [Segment.atoms]
  | later s _ ih => rw [atoms_cons, ih, atoms_cons]

@[simp] theorem evaluate_cons (vars : Variables) (s : Segment) (e : Expression) :
    evaluate vars (s :: e) =
      ((s.evaluate vars).1 ++ (e.evaluate vars).1, (s.evaluate vars).2 ++ (e.evaluate vars).2) := by
  simp [evaluate, String.join_cons]

/-- Tidying changes neither the text nor the warnings or their order. -/
theorem Tidies.evaluate_eq (h : e.Tidies e') (vars : Variables) :
    e'.evaluate vars = e.evaluate vars := by
  induction h with
  | drop e => simp [Segment.evaluate]
  | join text text' e => simp [Segment.evaluate, String.append_assoc]
  | later s _ ih => rw [evaluate_cons, ih, evaluate_cons]

theorem atoms_of_reached (h : Relation.ReflTransGen Tidies e n) : n.atoms = e.atoms := by
  induction h with
  | refl => rfl
  | tail _ hstep ih => exact hstep.atoms_eq.trans ih

theorem evaluate_of_reached (h : Relation.ReflTransGen Tidies e n) (vars : Variables) :
    n.evaluate vars = e.evaluate vars := by
  induction h with
  | refl => rfl
  | tail _ hstep ih => exact (hstep.evaluate_eq vars).trans ih

theorem Tidies.append_left (front : Expression) (h : e.Tidies e') :
    (front ++ e).Tidies (front ++ e') := by
  induction front with
  | nil => exact h
  | cons s front ih => exact .later s ih

/-- A literal joins the characters gathered in front of it. -/
theorem reaches_gathered_literal (cs : List Char) (text : String) (e : Expression) :
    Relation.ReflTransGen Tidies (gathered cs ++ .literal text :: e)
      (gathered (cs ++ text.toList) ++ e) := by
  cases cs with
  | nil =>
    by_cases hempty : text.toList = []
    · obtain rfl : text = "" := String.toList_injective hempty
      exact .single (.drop e)
    · rw [List.nil_append, gathered_of_ne_nil hempty, String.ofList_toList]
      exact .refl
  | cons c cs =>
    have hjoined : String.ofList (c :: (cs ++ text.toList)) = String.ofList (c :: cs) ++ text := by
      apply String.toList_injective
      simp
    rw [List.cons_append, gathered_of_ne_nil (List.cons_ne_nil _ _),
      gathered_of_ne_nil (List.cons_ne_nil _ _), hjoined]
    exact .single (.join _ _ e)

/-- Tidying does what gathering the atoms does. -/
theorem reaches_ofAtoms_go (e : Expression) (run : List Char) :
    Relation.ReflTransGen Tidies (gathered run.reverse ++ e) (ofAtoms.go run e.atoms) := by
  induction e generalizing run with
  | nil =>
    rw [List.append_nil]
    exact .refl
  | cons s e ih =>
    obtain text | name := s
    · have hnext := ih (text.toList.reverse ++ run)
      rw [List.reverse_append, List.reverse_reverse, ← ofAtoms_go_chars] at hnext
      exact (reaches_gathered_literal run.reverse text e).trans hnext
    · have hafter := (ih []).lift (fun e => gathered run.reverse ++ .variable name :: e)
        fun _ _ h => (h.later (.variable name)).append_left (gathered run.reverse)
      exact hafter

theorem tidiesTo_normalize (e : Expression) : e.TidiesTo e.normalize :=
  ⟨reaches_ofAtoms_go e [], ofAtoms_isNormal e.atoms⟩

/-- However an expression is tidied, it ends at its normal form. -/
theorem tidiesTo_iff : e.TidiesTo n ↔ n = e.normalize := by
  constructor
  · rintro ⟨hreached, hnormal⟩
    rw [← normalize_eq_self hnormal, normalize, normalize, atoms_of_reached hreached]
  · rintro rfl
    exact tidiesTo_normalize e

/-- The normal form says what the expression says, with the same warnings in the same order. -/
theorem evaluate_normalize (vars : Variables) (e : Expression) :
    e.normalize.evaluate vars = e.evaluate vars :=
  evaluate_of_reached (tidiesTo_normalize e).reached vars

theorem evaluate_literal (vars : Variables) (text : String) :
    evaluate vars [.literal text] = (text, []) := by
  simp [Segment.evaluate, evaluate]

end Expression

namespace Script

/-! ### Within a line -/

/-- The source of an expression is read wherever it stands, and no further. -/
theorem readQuotedAt_source_eq {e : Expression} (h : ∀ name ∈ e.variableNames, IsName name)
    (source : Option String) (number offset : Int) (before after : String) :
    readQuotedAt source ⟨number, (before ++ e.source ++ after).toList, offset⟩ before.length =
      .ok (e.normalize, ((before.length + e.source.length : Nat) : Int)) := by
  have hsource : e.source.toList = '"' :: (e.atoms.flatMap writeAtom ++ ['"']) := by
    rw [Expression.source, String.toList_ofList, Expression.written, List.cons_append]
  have hdrop : (before ++ e.source ++ after).toList.drop before.length =
      '"' :: (e.atoms.flatMap writeAtom ++ '"' :: after.toList) := by
    rw [String.append_assoc, String.toList_append, List.drop_left' String.length_toList,
      String.toList_append, hsource]
    simp
  have hlength : e.source.length = (e.atoms.flatMap writeAtom).length + 2 := by
    rw [← String.length_toList, hsource, List.length_cons, List.length_append]
    rfl
  refine readQuotedAt_natCast_eq_ok_iff.2 (readForward_eq_ok_iff.2 ?_)
  exact ⟨_, e.atoms, after.toList, hdrop, spells_flatMap_writeAtom (Expression.atoms_named h), rfl,
    by rw [hlength]⟩

/-- The source of an expression reads back, whatever stands around it, as the normal form of the
    expression, and ends where it ends. Under every table of variables the normal form evaluates as
    the expression does, and a text of its own to itself. -/
theorem readQuotedAt_source (source : Option String) (number offset : Int)
    (before after : String) :
    (∀ e : Expression, (∀ name ∈ e.variableNames, IsName name) →
      readQuotedAt source ⟨number, (before ++ e.source ++ after).toList, offset⟩ before.length =
          .ok (e.normalize, before.length + e.source.length) ∧
        (∀ n, e.TidiesTo n ↔ n = e.normalize) ∧
        ∀ vars, e.normalize.evaluate vars = e.evaluate vars) ∧
    ∀ text : String, ∃ n,
      readQuotedAt source ⟨number, (before ++ quotedText text ++ after).toList, offset⟩
          before.length = .ok (n, before.length + (quotedText text).length) ∧
        ∀ vars, n.evaluate vars = (text, []) := by
  constructor
  · intro e h
    exact ⟨readQuotedAt_source_eq h source number offset before after,
      fun _ => Expression.tidiesTo_iff, fun vars => Expression.evaluate_normalize vars e⟩
  · intro text
    have h : ∀ name ∈ Expression.variableNames [.literal text], IsName name := by
      simp [Expression.variableNames]
    refine ⟨_, readQuotedAt_source_eq h source number offset before after, fun vars => ?_⟩
    rw [Expression.evaluate_normalize, Expression.evaluate_literal]

/-- An empty literal, two neighbours, and characters that need escapes. -/
theorem readQuotedAt_source_neighbours :
    (∀ name ∈ Expression.variableNames [.literal "", .variable "mood", .literal "\x7b", .literal "\n"],
      IsName name) ∧
    readQuotedAt none ⟨1, "Ann: \"\x7bmood\x7d\\\x7b\\n\" \"".toList, 0⟩ 5 =
        .ok ([.variable "mood", .literal "\x7b\n"], 17) ∧
      (∀ vars, Expression.evaluate vars [.variable "mood", .literal "\x7b\n"] =
        Expression.evaluate vars
          [.literal "", .variable "mood", .literal "\x7b", .literal "\n"]) := by
  have hnamed : ∀ name ∈ Expression.variableNames
      [.literal "", .variable "mood", .literal "\x7b", .literal "\n"], IsName name := by
    have hmood : IsName "mood" := show Text.isName "mood".toList = true by decide
    simpa [Expression.variableNames] using hmood
  have hread := (readQuotedAt_source none 1 0 "Ann: " " \"").1 _ hnamed
  have hnormal : Expression.normalize
      [.literal "", .variable "mood", .literal "\x7b", .literal "\n"] =
        [.variable "mood", .literal "\x7b\n"] := by decide
  have hsource : Expression.source
      [.literal "", .variable "mood", .literal "\x7b", .literal "\n"] =
        "\"\x7bmood\x7d\\\x7b\\n\"" := by decide
  rw [hnormal, hsource] at hread
  exact ⟨hnamed, hread.1, hread.2.2⟩

end Script

end VisualNovel

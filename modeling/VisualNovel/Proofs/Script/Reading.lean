import VisualNovel.Script.Phrase

/-!
What the readers of a phrase accept, as a relation between tokens, value and the tokens left over.
Each reader has one equation, so a phrase can be followed in both directions: from its tokens to
its direction, and from an accepted direction back to its tokens.
-/

namespace VisualNovel.Script

/-- A changed result is there exactly if the result is. -/
theorem map_eq_ok {ε α β : Type} {f : α → β} {r : Except ε α} {b : β} :
    r.map f = .ok b ↔ ∃ a, r = .ok a ∧ f a = b := by
  cases r with
  | error e => simp [Except.map]
  | ok a => simp [Except.map]

/-- The error of a result. It can be compared where the results themselves cannot. -/
def errorOf? {ε α : Type} : Except ε α → Option ε
  | .error e => some e
  | .ok _ => none

theorem eq_error_of_errorOf? {ε α : Type} {r : Except ε α} {e : ε} (h : errorOf? r = some e) :
    r = .error e := by
  cases r with
  | error failure => exact congrArg Except.error (Option.some.inj h)
  | ok a => cases h

namespace Reading

variable {α β : Type} {ts rest : List Token}

/-- This value is read, and these tokens are left. -/
def Reads (r : Reading α ts) (a : α) (rest : List Token) : Prop :=
  ∃ h : rest.length ≤ ts.length, r = .ok (a, ⟨rest, h⟩)

theorem Reads.length_le {r : Reading α ts} {a : α} (h : r.Reads a rest) :
    rest.length ≤ ts.length := by
  obtain ⟨hlen, -⟩ := h
  exact hlen

@[simp] theorem reads_ok {a : α} {out : α × { rest : List Token // rest.length ≤ ts.length }} :
    Reads (.ok out : Reading α ts) a rest ↔ out.1 = a ∧ out.2.1 = rest := by
  obtain ⟨b, left, hleft⟩ := out
  constructor
  · rintro ⟨h, heq⟩
    cases heq
    exact ⟨rfl, rfl⟩
  · rintro ⟨rfl, rfl⟩
    exact ⟨hleft, rfl⟩

@[simp] theorem not_reads_error {flaw : Flaw} {a : α} :
    ¬ Reads (.error flaw : Reading α ts) a rest := by
  rintro ⟨h, heq⟩
  cases heq

/-- What starts with a token that satisfies `P` and goes on with `rest`. -/
theorem exists_cons_eq {t : Token} {more : List Token} {P : Token → Prop} :
    (∃ t', t :: more = t' :: rest ∧ P t') ↔ P t ∧ more = rest := by
  simp only [List.cons.injEq, and_assoc, exists_eq_left']
  exact and_comm

@[simp] theorem done_reads {a b : α} : (done a ts).Reads b rest ↔ a = b ∧ ts = rest :=
  reads_ok

@[simp] theorem andThen_reads {first : Reading α ts}
    {second : α → (rest : List Token) → Reading β rest} {b : β} :
    (first.andThen second).Reads b rest ↔
      ∃ a between, first.Reads a between ∧ (second a between).Reads b rest := by
  cases first with
  | error flaw => simp [andThen]
  | ok out =>
    obtain ⟨a, between, hbetween⟩ := out
    unfold andThen
    cases hsecond : second a between with
    | error flaw => simp [hsecond]
    | ok out =>
      simp [hsecond, and_assoc]

@[simp] theorem mapValue_reads {f : α → β} {r : Reading α ts} {b : β} :
    (r.mapValue f).Reads b rest ↔ ∃ a, r.Reads a rest ∧ f a = b := by
  cases r with
  | error flaw => simp [mapValue, Except.map]
  | ok out =>
    simp only [mapValue, Except.map, reads_ok, and_assoc, exists_eq_left']
    exact and_comm

@[simp] theorem one_reads {m : Mistake} {accept : TokenValue → Option α} {a : α} :
    (one m accept ts).Reads a rest ↔ ∃ t, ts = t :: rest ∧ accept t.value = some a := by
  cases ts with
  | nil => simp [one]
  | cons t more =>
    rw [exists_cons_eq]
    unfold one
    dsimp only
    split
    · next a' haccept => simp [haccept]
    · next haccept => simp [haccept]

end Reading

open Reading

variable {ts rest : List Token}

@[simp] theorem TokenValue.word?_eq_some {v : TokenValue} {w : String} :
    v.word? = some w ↔ v = .word w := by
  cases v <;> simp [word?]

@[simp] theorem TokenValue.number?_eq_some {v : TokenValue} {x : Float} :
    v.number? = some x ↔ v = .number x := by
  cases v <;> simp [number?]

@[simp] theorem keyword_reads {ws : List String} {w : String} :
    (keyword ws ts).Reads w rest ↔ ∃ t, ts = t :: rest ∧ t.value = .word w ∧ w ∈ ws := by
  simp [keyword, Option.filter_eq_some_iff]

@[simp] theorem identifier_reads {what w : String} :
    (identifier what ts).Reads w rest ↔ ∃ t, ts = t :: rest ∧ t.value = .word w := by
  simp [identifier]

@[simp] theorem number_reads {what : String} {x : Float} :
    (number what ts).Reads x rest ↔ ∃ t, ts = t :: rest ∧ t.value = .number x := by
  simp [number]

@[simp] theorem member_reads {α : Type} [Vocabulary α] {a : α} :
    (member α ts).Reads a rest ↔
      ∃ t w, ts = t :: rest ∧ t.value = .word w ∧ Vocabulary.ofWord? w = some a := by
  simp [member, Option.bind_eq_some_iff]

@[simp] theorem verb_reads {subject : String} {verbs : List String} {w : String} :
    (verb subject verbs ts).Reads w rest ↔
      ∃ t, ts = t :: rest ∧ t.value = .word w ∧ w ∈ verbs := by
  have haccept (v : TokenValue) (w : String) :
      (v.word?.filter fun w => verbs.contains w) = some w ↔ v = .word w ∧ w ∈ verbs := by
    simp [Option.filter_eq_some_iff]
  cases ts with
  | nil => simp [verb]
  | cons t more =>
    rw [exists_cons_eq, ← haccept]
    unfold verb
    dsimp only
    split
    · next w' hw' => rw [hw', reads_ok, Option.some.injEq]
    · next hnone => simp only [hnone, not_reads_error, reduceCtorEq, false_and]

/-- A name is one token: a word, or a text without variables. -/
@[simp] theorem nameOrText_reads {what name : String} :
    (nameOrText what ts).Reads name rest ↔ ∃ t, ts = t :: rest ∧
      (t.value = .word name ∨
        ∃ e, t.value = .text e ∧ e.variableNames = [] ∧ e.literalText = name) := by
  cases ts with
  | nil => simp [nameOrText]
  | cons t more =>
    rw [exists_cons_eq]
    unfold nameOrText
    dsimp only
    split
    · next w hvalue => simp [hvalue]
    · next e hvalue =>
      by_cases he : e.variableNames = []
      · simp [hvalue, he]
      · simp [hvalue, he]
    · next x hvalue => simp [hvalue]

/-- The member of a vocabulary that a token is. -/
def TokenValue.member? (α : Type) [Vocabulary α] (v : TokenValue) : Option α :=
  v.word?.bind Vocabulary.ofWord?

@[simp] theorem optionalMember_reads {α : Type} [Vocabulary α] {a : Option α} :
    (optionalMember α ts).Reads a rest ↔
      (∃ t, ts = t :: rest ∧ (∃ b, t.value.member? α = some b) ∧ a = t.value.member? α) ∨
        (∀ t ∈ ts.head?, t.value.member? α = none) ∧ a = none ∧ ts = rest := by
  cases ts with
  | nil => simp [optionalMember, eq_comm]
  | cons t more =>
    rw [exists_cons_eq]
    unfold optionalMember TokenValue.member?
    dsimp only
    split
    · next b hmember => simp [hmember, eq_comm]
    · next hmember => simp [hmember, eq_comm]

@[simp] theorem scaleFactor_reads {x : Float} :
    (scaleFactor ts).Reads x rest ↔ ∃ t, ts = t :: rest ∧ t.value = .number x ∧ ¬ x < 0 := by
  cases ts with
  | nil => simp [scaleFactor]
  | cons t more =>
    rw [exists_cons_eq]
    unfold scaleFactor
    dsimp only
    split
    · next hnone =>
      have hvalue : t.value ≠ .number x := fun h => by simp [h, TokenValue.number?] at hnone
      simp [hvalue]
    · next y hy =>
      rw [TokenValue.number?_eq_some] at hy
      rw [hy, TokenValue.number.injEq]
      split
      · next hneg =>
        simp only [not_reads_error, false_iff]
        rintro ⟨⟨rfl, hnot⟩, -⟩
        exact hnot hneg
      · next hnot =>
        simp only [reads_ok]
        constructor
        · rintro ⟨rfl, rfl⟩
          exact ⟨⟨rfl, hnot⟩, rfl⟩
        · rintro ⟨⟨rfl, -⟩, rfl⟩
          exact ⟨rfl, rfl⟩

@[simp] theorem layerIndex_reads {n : Int} :
    (layerIndex ts).Reads n rest ↔ ∃ t, ts = t :: rest ∧
      ∃ x, t.value = .number x ∧ Number.isWhole x ∧ Number.truncate x = .ok n := by
  cases ts with
  | nil => simp [layerIndex]
  | cons t more =>
    rw [exists_cons_eq]
    unfold layerIndex
    dsimp only
    split
    · next hnone =>
      have hvalue (x : Float) : t.value ≠ .number x := fun h => by
        simp [h, TokenValue.number?] at hnone
      simp [hvalue]
    · next y hy =>
      rw [TokenValue.number?_eq_some] at hy
      by_cases hwhole : Number.isWhole y
      · simp only [hwhole, if_true, hy, TokenValue.number.injEq, exists_eq_left', true_and]
        split
        · next m hm => simp [hm]
        · next e he => simp [he]
      · simp [hwhole, hy]

@[simp] theorem atEnd_eq_ok {α : Type} {r : Reading α ts} {a : α} :
    atEnd r = .ok a ↔ r.Reads a [] := by
  cases r with
  | error flaw => simp [atEnd]
  | ok out =>
    obtain ⟨b, rest', hrest'⟩ := out
    cases rest' with
    | nil => simp [atEnd]
    | cons t more => simp [atEnd]

@[simp] theorem finishWith_eq_ok {α : Type} {r : Reading α ts}
    {finish : α → List Token → Except Flaw StageDirection} {d : StageDirection} :
    finishWith r finish = .ok d ↔ ∃ a rest, r.Reads a rest ∧ finish a rest = .ok d := by
  cases r with
  | error flaw => simp [finishWith]
  | ok out => simp [finishWith, and_assoc]

end VisualNovel.Script

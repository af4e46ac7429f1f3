import VisualNovel.Proofs.Number.ReadBack
import VisualNovel.Proofs.Script.Phrase

/-!
Numbers in a script. A number is plain if its text has no exponent, and plain numbers are written
so that they read back; the sign of a zero is lost, which no comparison sees.
-/

namespace VisualNovel

namespace Number

/-- A finite double whose text has no exponent: a whole number, which is written with all its
    digits, or one whose shortest text has none. -/
def IsPlain (x : Float) : Prop :=
  ∃ negative units, parts x = .finite negative units ∧
    (units % unitsPerOne = 0 ∨ 'e' ∉ (shortest x).toList)

theorem exists_of_isWhole {x : Float} (h : isWhole x) :
    ∃ negative units, parts x = .finite negative units ∧ units % unitsPerOne = 0 := by
  unfold isWhole at h
  split at h
  · next negative units hparts => exact ⟨negative, units, hparts, by simpa using h⟩
  · cases h

theorem IsPlain.of_isWhole {x : Float} (h : isWhole x) : IsPlain x := by
  obtain ⟨negative, units, hparts, hwhole⟩ := exists_of_isWhole h
  exact ⟨negative, units, hparts, .inl hwhole⟩

theorem not_isPlain {x : Float} (hwhole : isWhole x = false) (he : 'e' ∈ (shortest x).toList) :
    ¬ IsPlain x := by
  rintro ⟨negative, units, hparts, hzero | hnot⟩
  · simp [isWhole, hparts, hzero] at hwhole
  · exact hnot he

/-- The number that a number in a script reads back as. -/
def reread (x : Float) : Float :=
  match parts x with
  | .finite _ 0 => ofMagnitudeBits false 0
  | _ => x

theorem reread_of_zero {x : Float} {negative : Bool} (h : parts x = .finite negative 0) :
    reread x = ofMagnitudeBits false 0 := by
  simp [reread, h]

theorem reread_of_ne_zero {x : Float} {negative : Bool} {units : Nat}
    (h : parts x = .finite negative units) (hne : units ≠ 0) : reread x = x := by
  unfold reread
  split
  · next negative' hzero =>
    rw [h] at hzero
    cases hzero
    exact absurd rfl hne
  · rfl

/-- A number that reads back is the same number. -/
theorem beq_reread {x : Float} (h : IsPlain x) : x == reread x := by
  obtain ⟨negative, units, hparts, -⟩ := h
  unfold reread
  split
  · next negative' hzero =>
    rw [eq_zero_of_units_eq_zero hzero]
    exact zero_beq_zero negative'
  · exact beq_self_of_finite hparts

/-- What is not negative reads back so. -/
theorem not_reread_lt_zero {x : Float} (h : ¬ x < 0) : ¬ reread x < 0 := by
  unfold reread
  split
  · decide
  · exact h

end Number

namespace Script

open Number Text

/-- A number may stand in front of this. -/
def NumberEnds (rest : List Char) : Prop := Ends (fun c => isDigit c || c == '.' || c == '%') rest

theorem NumberEnds.digit {rest : List Char} (h : NumberEnds rest) : Ends isDigit rest := by
  intro c hc
  have hnone := h c hc
  simp only [Bool.or_eq_false_iff] at hnone
  exact hnone.1.1

theorem NumberEnds.places {rest : List Char} (h : NumberEnds rest) : places rest = ([], rest) := by
  unfold Script.places
  split
  · have hnone := h '.' rfl
    simp at hnone
  · rfl

theorem NumberEnds.dropPercent {rest : List Char} (h : NumberEnds rest) :
    dropPercent rest = rest := by
  unfold Script.dropPercent
  split
  · have hnone := h '%' rfl
    simp at hnone
  · rfl

/-- A text with a minus sign in front if it is that of a negative number. -/
def withSign (negative : Bool) (body : List Char) : List Char :=
  if negative then '-' :: body else body

theorem sign_withSign {negative : Bool} {ds : List Char} (hne : ds ≠ [])
    (hdigits : ∀ c ∈ ds, isDigit c) (rest : List Char) :
    sign (withSign negative ds ++ rest) = (negative, ds ++ rest) := by
  cases negative with
  | true => rfl
  | false =>
    obtain ⟨c, more, rfl⟩ := List.exists_cons_of_ne_nil hne
    show sign (c :: (more ++ rest)) = _
    unfold sign
    split
    · next heq =>
      cases heq
      exact absurd (hdigits '-' List.mem_cons_self) (by decide)
    · rfl

/-- Digits without a point are read as a whole number. -/
theorem numberAt?_whole {ds rest : List Char} (hne : ds ≠ []) (hdigits : ∀ c ∈ ds, isDigit c)
    (hrest : NumberEnds rest) (negative : Bool) :
    numberAt? (withSign negative ds ++ rest) =
      some (ofDecimal negative (digitsValue ds) 0, rest) := by
  unfold numberAt?
  rw [sign_withSign hne hdigits]
  dsimp only
  rw [takeWhile_append_of_ends hdigits hrest.digit, dropWhile_append_of_ends hdigits hrest.digit,
    hrest.places, if_neg (by simpa using hne)]
  dsimp only
  rw [hrest.dropPercent, List.append_nil]
  rfl

/-- Digits around a point are read as a decimal. -/
theorem numberAt?_point {whole after rest : List Char} (hwhole : whole ≠ []) (hafter : after ≠ [])
    (hdigits : ∀ c ∈ whole ++ after, isDigit c) (hrest : NumberEnds rest) (negative : Bool) :
    numberAt? (withSign negative (whole ++ '.' :: after) ++ rest) =
      some (ofDecimal negative (digitsValue (whole ++ after)) (-(after.length : Int)), rest) := by
  obtain ⟨hdigits, hplaces⟩ := List.forall_mem_append.1 hdigits
  have hpoint : Ends isDigit ('.' :: (after ++ rest)) := ends_cons.2 (by decide)
  have hsplit : withSign negative (whole ++ '.' :: after) ++ rest =
      withSign negative whole ++ '.' :: (after ++ rest) := by
    cases negative <;> simp [withSign]
  have hafter : places ('.' :: (after ++ rest)) = (after, rest) := by
    show (if _ then _ else _) = _
    rw [takeWhile_append_of_ends hplaces hrest.digit, dropWhile_append_of_ends hplaces hrest.digit,
      if_neg (by simpa using hafter)]
  unfold numberAt?
  rw [hsplit, sign_withSign hwhole hdigits]
  dsimp only
  rw [takeWhile_append_of_ends hdigits hpoint, dropWhile_append_of_ends hdigits hpoint, hafter,
    if_neg (by simpa using hwhole)]
  dsimp only
  rw [hrest.dropPercent]

/-- Digits around a point are read as the number that they write. -/
theorem numberAt?_positional {bits : Nat} {whole after rest : List Char}
    (h : Positional bits whole after) (hrest : NumberEnds rest) (negative : Bool) :
    numberAt? (withSign negative (whole ++ '.' :: after) ++ rest) =
      some (ofMagnitudeBits negative bits, rest) := by
  rw [numberAt?_point h.whole_ne_nil h.places_ne_nil h.digits hrest, h.reads]

/-! ### Plain numbers -/

theorem ofDecimal_whole {n : Nat} (hn : 0 < n) (negative : Bool) :
    ofDecimal negative n 0 = ofMagnitudeBits negative (nearestBits n 1) :=
  ofDecimal_neg (f := 0) hn (by omega) negative

/-- The text of a whole double. -/
theorem shortestOrWhole_of_whole {x : Float} {negative : Bool} {units : Nat}
    (hparts : parts x = .finite negative units) (hwhole : units % unitsPerOne = 0) :
    (shortestOrWhole x).toList = withSign (negative && decide (units / unitsPerOne ≠ 0))
      (digitsOf (units / unitsPerOne)) := by
  unfold shortestOrWhole withSign
  rw [hparts]
  dsimp only
  rw [if_pos hwhole, String.toList_ofList]

/-- The text of a double with a fraction. -/
theorem shortestOrWhole_of_fraction {x : Float} {negative : Bool} {units : Nat}
    (hparts : parts x = .finite negative units) (hfraction : units % unitsPerOne ≠ 0) :
    ∃ bits, 0 < bits ∧ bits < infinityBits ∧ x = ofMagnitudeBits negative bits ∧
      shortestOrWhole x = shortest x ∧
      (shortest x).toList = withSign negative (plainLayout.write (shortestDigits bits)) := by
  obtain ⟨bits, hfinite, hmagnitude, hunits, hx⟩ := of_parts_eq_finite hparts
  have hne : units ≠ 0 := by
    rintro rfl
    exact hfraction (Nat.zero_mod _)
  refine ⟨bits, Nat.pos_of_ne_zero fun hzero => ?_, hfinite, hx, ?_, ?_⟩
  · rw [hzero] at hunits
    exact hne hunits.symm
  · unfold shortestOrWhole
    rw [hparts]
    dsimp only
    rw [if_neg hfraction]
  · unfold shortest withSign
    rw [hparts]
    dsimp only
    rw [if_neg hne, String.toList_ofList, hmagnitude]

/-- The digits in front of an exponent, with a point behind the first if there are more. -/
def mantissa : List Char → List Char
  | [] => ['0']
  | [c] => [c]
  | c :: rest => c :: '.' :: rest

/-- Outside the bounds of its layout a number is written with an exponent. -/
theorem write_exponent {d : Digits} (h : ¬ (-4 < d.point ∧ d.point ≤ 16)) :
    plainLayout.write d = mantissa d.digits ++ exponentText (d.point - 1) := by
  unfold mantissa
  exact if_neg h

/-- Reading the whole number that a double is gives the double. -/
theorem ofDecimal_eq_self {x : Float} {negative : Bool} {units : Nat}
    (hparts : parts x = .finite negative units) (hwhole : units % unitsPerOne = 0)
    (hne : units ≠ 0) : ofDecimal negative (units / unitsPerOne) 0 = x := by
  obtain ⟨bits, hfinite, -, hunits, hx⟩ := of_parts_eq_finite hparts
  have hmul : units / unitsPerOne * unitsPerOne = units :=
    Nat.div_mul_cancel (Nat.dvd_of_mod_eq_zero hwhole)
  generalize units / unitsPerOne = n at *
  have hn : 0 < n := Nat.pos_of_ne_zero fun hzero => hne (by rw [← hmul, hzero, Nat.zero_mul])
  rw [ofDecimal_whole hn, ← nearestBits_mul_right n 1 unitsPerOne_pos, hmul, Nat.one_mul, ← hunits,
    nearestBits_unitsOfBits hfinite, hx]

/-- A plain number is read back. -/
theorem numberAt?_shortestOrWhole {x : Float} (hx : IsPlain x) {rest : List Char}
    (hrest : NumberEnds rest) :
    numberAt? ((shortestOrWhole x).toList ++ rest) = some (reread x, rest) := by
  obtain ⟨negative, units, hparts, hplain⟩ := hx
  by_cases hwhole : units % unitsPerOne = 0
  · rw [shortestOrWhole_of_whole hparts hwhole,
      numberAt?_whole (digitsOf_ne_nil _) isDigit_of_mem_digitsOf hrest, digitsValue_digitsOf]
    by_cases hzero : units = 0
    · subst hzero
      rw [reread_of_zero hparts, Nat.zero_div]
      simp [ofDecimal]
    · have hn : units / unitsPerOne ≠ 0 := fun h =>
        hzero (by rw [← Nat.div_mul_cancel (Nat.dvd_of_mod_eq_zero hwhole), h, Nat.zero_mul])
      simp only [ne_eq, hn, not_false_eq_true, decide_true, Bool.and_true]
      rw [reread_of_ne_zero hparts hzero, ofDecimal_eq_self hparts hwhole hzero]
  · obtain ⟨bits, hpos, hfinite, hx, hshortest, htext⟩ :=
      shortestOrWhole_of_fraction hparts hwhole
    have hne : units ≠ 0 := by
      rintro rfl
      exact hwhole (Nat.zero_mod _)
    have hpoint : -4 < (shortestDigits bits).point ∧ (shortestDigits bits).point ≤ 16 := by
      refine Decidable.byContradiction fun hnot => ?_
      refine hplain.resolve_left hwhole ?_
      rw [htext, write_exponent hnot]
      cases negative <;> simp [withSign, exponentText]
    obtain ⟨whole, after, hwrite, hpositional⟩ :=
      (shortestDigits_spells hpos hfinite).write_positional hpoint.1 hpoint.2
    rw [hshortest, htext, hwrite, numberAt?_positional hpositional hrest,
      reread_of_ne_zero hparts hne, hx]

theorem toString_signed (negative : Bool) (n : Nat) :
    (toString (if negative then -(n : Int) else n)).toList =
      withSign (negative && decide (n ≠ 0)) (digitsOf n) := by
  cases negative with
  | false => exact Nat.toList_repr
  | true =>
    cases n with
    | zero => rfl
    | succ m =>
      show ("-" ++ Nat.repr (m + 1)).toList = _
      rw [String.toList_append, Nat.toList_repr]
      rfl

/-- A layer is read back: it is written as the double that holds it. -/
theorem numberAt?_layer {n : Int} (hn : IsDouble n) {rest : List Char} (hrest : NumberEnds rest) :
    ∃ x, numberAt? ((toString n).toList ++ rest) = some (x, rest) ∧ isWhole x ∧
      truncate x = .ok n := by
  obtain ⟨x, hisWhole, htruncate⟩ := hn
  obtain ⟨negative, units, hparts, hwhole⟩ := exists_of_isWhole hisWhole
  have hvalue : truncate x =
      .ok (if negative then -((units / unitsPerOne : Nat) : Int) else (units / unitsPerOne : Nat)) := by
    unfold truncate
    rw [hparts]
  rw [hvalue, Except.ok.injEq] at htruncate
  subst htruncate
  have htext := shortestOrWhole_of_whole hparts hwhole
  rw [← toString_signed] at htext
  rw [← htext, numberAt?_shortestOrWhole ⟨negative, units, hparts, .inl hwhole⟩ hrest]
  refine ⟨_, rfl, ?_⟩
  by_cases hzero : units = 0
  · subst hzero
    rw [reread_of_zero hparts, Nat.zero_div]
    refine ⟨by decide +kernel, ?_⟩
    have hnone : truncate (ofMagnitudeBits false 0) = .ok 0 := by decide +kernel
    cases negative <;> exact hnone
  · rw [reread_of_ne_zero hparts hzero]
    exact ⟨hisWhole, hvalue⟩

end Script

end VisualNovel

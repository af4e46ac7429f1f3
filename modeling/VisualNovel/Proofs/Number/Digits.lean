import Mathlib.Tactic.Ring
import VisualNovel.Proofs.Text.Names
import VisualNovel.Number.Shortest
import VisualNovel.Script.Token

/-!
Decimal digits: those of a natural number spell its value, and their number bounds it.
-/

namespace VisualNovel.Number

open Script Text

/-- The ten digits of the decimal system. -/
theorem digitValue?_digitChar {k : Nat} (hk : k < 10) : digitValue? (Nat.digitChar k) = some k := by
  revert k
  decide

theorem isDigit_digitChar {k : Nat} (hk : k < 10) : isDigit (Nat.digitChar k) := by
  simp [isDigit, digitValue?_digitChar hk]

theorem digitsOf_eq (n : Nat) :
    digitsOf n = if n < 10 then [Nat.digitChar n]
      else digitsOf (n / 10) ++ [Nat.digitChar (n % 10)] :=
  Nat.toDigits_eq_if (by decide)

theorem digitsOf_ne_nil (n : Nat) : digitsOf n ≠ [] := Nat.toDigits_ne_nil

theorem isDigit_of_mem_digitsOf {n : Nat} : ∀ c ∈ digitsOf n, isDigit c := by
  induction n using Nat.strong_induction_on with
  | _ n ih =>
    rw [digitsOf_eq]
    split
    · next hn => simpa using isDigit_digitChar hn
    · next hn =>
      intro c hc
      rcases List.mem_append.1 hc with hmem | hmem
      · exact ih (n / 10) (by omega) c hmem
      · rw [List.mem_singleton.1 hmem]
        exact isDigit_digitChar (Nat.mod_lt n (by decide))

theorem not_mem_digits {ds : List Char} (hds : ∀ c ∈ ds, isDigit c) {c : Char}
    (hc : isDigit c = false) : c ∉ ds := by
  intro hmem
  rw [hds c hmem] at hc
  cases hc

/-- Digits after others: those in front count as many places more. -/
theorem digitsValue_append (ds es : List Char) :
    digitsValue (ds ++ es) = digitsValue ds * 10 ^ es.length + digitsValue es := by
  have hgo (v : Nat) : es.foldl (fun n c => 10 * n + (digitValue? c).getD 0) v =
      v * 10 ^ es.length + es.foldl (fun n c => 10 * n + (digitValue? c).getD 0) 0 := by
    induction es generalizing v with
    | nil => simp
    | cons c es ih =>
      rw [List.foldl_cons, List.foldl_cons, ih, ih (10 * 0 + _), List.length_cons, Nat.pow_succ]
      ring
  unfold digitsValue
  rw [List.foldl_append, hgo]

/-- The digits of a number spell it. -/
theorem digitsValue_digitsOf (n : Nat) : digitsValue (digitsOf n) = n := by
  have hone {k : Nat} (hk : k < 10) : digitsValue [Nat.digitChar k] = k := by
    simp [digitsValue, digitValue?_digitChar hk]
  induction n using Nat.strong_induction_on with
  | _ n ih =>
    rw [digitsOf_eq]
    split
    · next hn => exact hone hn
    · next hn =>
      rw [digitsValue_append, ih (n / 10) (by omega), hone (Nat.mod_lt n (by decide))]
      simp only [List.length_singleton, Nat.pow_one]
      omega

theorem digitsValue_replicate_zero (k : Nat) : digitsValue (List.replicate k '0') = 0 := by
  induction k with
  | zero => rfl
  | succ k ih =>
    rw [List.replicate_succ', digitsValue_append, ih]
    decide

/-- A positive number is no less than the power of ten that its digits reach. -/
theorem pow_length_digitsOf_le {n : Nat} (hn : 0 < n) : 10 ^ ((digitsOf n).length - 1) ≤ n := by
  by_cases hlen : (digitsOf n).length ≤ 1
  · rw [Nat.sub_eq_zero_of_le hlen]
    exact hn
  · refine Nat.le_of_not_lt fun hlt => ?_
    have hle : (digitsOf n).length ≤ (digitsOf n).length - 1 :=
      (Nat.length_toDigits_le_iff (by decide) (by omega)).2 hlt
    omega

end VisualNovel.Number

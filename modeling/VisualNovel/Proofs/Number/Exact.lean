import Mathlib.Analysis.SpecialFunctions.Trigonometric.Basic
import VisualNovel.Number.Binary64
import VisualNovel.Stage.Scalar

/-!
Exact arithmetic for the stage: the real numbers. What is said of times in exact arithmetic is said
of the same definitions that run on doubles, taken over this scalar.
-/

namespace VisualNovel

namespace Number

/-- The exact value of a finite double; the others have none and count as zero. -/
noncomputable def realValue (x : Float) : ℝ :=
  match parts x with
  | .finite negative units => (if negative then -(units : ℝ) else units) / unitsPerOne
  | _ => 0

end Number

noncomputable instance : Scalar ℝ where
  decimal digits places := digits / 10 ^ places
  ofFloat := Number.realValue
  less a b := decide (a < b)
  lessEq a b := decide (a ≤ b)
  cube x := x ^ 3
  wave t := (1 - Real.cos (Real.pi * t)) / 2

namespace Scalar

variable {a b : ℝ}

@[simp] theorem zero_real : (zero : ℝ) = 0 := by
  show ((0 : Nat) : ℝ) / 10 ^ 0 = 0
  simp

@[simp] theorem one_real : (one : ℝ) = 1 := by
  show ((1 : Nat) : ℝ) / 10 ^ 0 = 1
  simp

@[simp] theorem nat_real (n : Nat) : (nat n : ℝ) = n := by
  show (n : ℝ) / 10 ^ 0 = n
  simp

theorem decimal_real (digits places : Nat) : (decimal digits places : ℝ) = digits / 10 ^ places :=
  rfl

@[simp] theorem less_real : less a b = true ↔ a < b := decide_eq_true_iff

@[simp] theorem lessEq_real : lessEq a b = true ↔ a ≤ b := decide_eq_true_iff

@[simp] theorem greatest_real : greatest a b = max a b := by
  unfold greatest
  split
  · next h => exact (max_eq_right (less_real.1 h).le).symm
  · next h => exact (max_eq_left (not_lt.1 (mt less_real.2 h))).symm

@[simp] theorem least_real : least a b = min a b := by
  unfold least
  split
  · next h => exact (min_eq_right (less_real.1 h).le).symm
  · next h => exact (min_eq_left (not_lt.1 (mt less_real.2 h))).symm

@[simp] theorem sum_real (xs : List ℝ) : sum xs = xs.sum := by
  unfold sum
  rw [zero_real]
  exact List.sum_eq_foldl.symm

end Scalar

end VisualNovel

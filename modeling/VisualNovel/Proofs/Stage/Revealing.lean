import VisualNovel.Proofs.Number.Remaining
import VisualNovel.Stage.Reveal

/-!
A line in the box that has had all of its time. Then all of its text can be seen, whatever the pauses
between its characters are; and it counts as complete, if these pauses make a time at all. Pauses that
are no numbers do not: such a line is there as a whole and yet never complete.
-/

namespace VisualNovel

open Number

/-! ### Times of characters -/

namespace Typewriter

variable {α : Type} [Scalar α] (rp : RevealParams α)

/-- Every character but a line end takes a time of its own. -/
theorem times_length (carry : α) (chars : List Char) :
    (times rp carry chars).1.length = (chars.filter (· != '\n')).length := by
  fun_induction times rp carry chars with
  | case1 => rfl
  | case2 carry rest ih => simpa using ih
  | case3 carry rest ts left hrest ih => simp_all
  | case4 => simp_all

theorem runningSums_length (acc : α) (ts : List α) : (runningSums acc ts).length = ts.length := by
  induction ts generalizing acc with
  | nil => rfl
  | cons t rest ih => simp [runningSums, ih]

/-- A line has no time, or it has a fraction for each number of its visible characters. -/
theorem timing_total_or (chars : List Char) :
    (timing rp chars).total = Scalar.zero ∨
      Scalar.lessEq (timing rp chars).total Scalar.zero = false ∧
        (timing rp chars).fractions.length = (chars.filter (· != '\n')).length + 1 := by
  unfold timing
  dsimp only
  split
  · exact .inl rfl
  · next hpositive =>
    refine .inr ⟨by simpa using hpositive, ?_⟩
    simp [runningSums_length, times_length]

theorem zipIdx_filter_length (chars : List Char) :
    (chars.zipIdx.filter fun (c, _) => c != '\n').length =
      (chars.filter (· != '\n')).length := by
  have hcount := congrArg (List.countP (· != '\n')) (List.zipIdx_map_fst 0 chars)
  rw [List.countP_map] at hcount
  rw [← List.countP_eq_length_filter, ← List.countP_eq_length_filter]
  exact hcount

end Typewriter

/-! ### Lines -/

/-- Whatever is not less than any entry exceeds none of them. -/
theorem countUpTo_of_not_less {table : Array Float} {x : Float}
    (h : ∀ y, Scalar.less x y = false) (lo hi : Nat) (hlo : lo ≤ hi) (hhi : hi ≤ table.size) :
    countUpTo table x lo hi = hi := by
  fun_induction countUpTo table x lo hi with
  | case1 lo hi hlt mid y hy hless => simp [h] at hless
  | case2 lo hi hlt mid y hy hless ih => exact ih (by omega) hhi
  | case3 lo hi hlt mid hmid ih =>
    have hnone : table.size ≤ mid := Array.getElem?_eq_none_iff.1 hmid
    omega
  | case4 lo hi hlt => omega

namespace RevealedLine

/-- A line that came into the box, some time ago. -/
def Begun (line : RevealedLine Float) : Prop :=
  ∃ params speaker text, { line with elapsed := Scalar.zero } = start params speaker text

/-- A line that has had all of its time is complete, if that is a time. -/
theorem isFinished_of_elapsed_eq {line : RevealedLine Float} (h : line.elapsed = line.duration)
    (hduration : Scalar.lessEq Scalar.zero line.duration = true) : line.isFinished = true := by
  unfold isFinished
  rw [h]
  exact lessEq_sub_self hduration (c := Scalar.decimal 1 4) rfl

theorem visibleText_of_le {line : RevealedLine Float} (h : line.visible.length ≤ line.visibleCount) :
    line.visibleText = line.text := by
  unfold visibleText
  exact if_pos h

variable {line : RevealedLine Float}

/-- The time of a line is none, or it has a fraction of it for each number of visible characters. -/
theorem Begun.fractions_length (h : line.Begun) :
    line.duration = Scalar.zero ∨ Scalar.lessEq line.duration Scalar.zero = false ∧
      line.fractions.length = line.visible.length + 1 := by
  obtain ⟨params, speaker, text, hline⟩ := h
  have hduration : line.duration = (Typewriter.timing params (text.getD "").toList).total :=
    (congrArg RevealedLine.duration hline :)
  have hfractions : line.fractions = (Typewriter.timing params (text.getD "").toList).fractions :=
    (congrArg RevealedLine.fractions hline :)
  have hvisible : line.visible = ((text.getD "").toList.zipIdx.filter fun (c, _) => c != '\n').map
      (·.2) := (congrArg RevealedLine.visible hline :)
  rw [hduration, hfractions, hvisible, List.length_map, Typewriter.zipIdx_filter_length]
  exact Typewriter.timing_total_or _ _

/-- A line whose time is a number is complete when it has had all of it. -/
theorem Begun.isFinished_eq (h : line.Begun) (helapsed : line.elapsed = line.duration)
    (hnumber : Scalar.lessEq line.duration line.duration = true) : line.isFinished = true := by
  apply isFinished_of_elapsed_eq helapsed
  rcases h.fractions_length with hzero | ⟨hpositive, -⟩
  · rw [hzero]
    rfl
  · refine Decidable.byContradiction fun hnot => ?_
    rw [lessEq_eq, unpack_eq_notANumber hpositive hnot] at hnumber
    cases hnumber

/-- All the text of a line can be seen when it has had all of its time. -/
theorem Begun.visibleText_eq (h : line.Begun) (helapsed : line.elapsed = line.duration) :
    line.visibleText = line.text := by
  refine visibleText_of_le ?_
  unfold visibleCount
  cases hfinished : line.isFinished with
  | true => exact Nat.le_refl _
  | false =>
    have hnot : ¬ Scalar.lessEq Scalar.zero line.duration = true := fun hduration => by
      rw [isFinished_of_elapsed_eq helapsed hduration] at hfinished
      cases hfinished
    rcases h.fractions_length with hzero | ⟨hpositive, hlength⟩
    · rw [hzero] at hnot
      exact absurd rfl hnot
    · have hnan := unpack_eq_notANumber hpositive hnot
      have hnone (y : Float) : Scalar.less (line.elapsed / line.duration) y = false :=
        less_of_nan (unpack_div_of_nan (helapsed ▸ hnan))
      simp only [Bool.false_eq_true, if_false]
      rw [countUpTo_of_not_less hnone _ _ (Nat.zero_le _) (Nat.le_refl _), List.size_toArray,
        hlength]
      exact Nat.le_refl _

end RevealedLine

/-! ### The box -/

namespace DialogueBox

/-- The line in the box, if there is one, came into it some time ago. -/
def Begun (box : DialogueBox Float) : Prop := ∀ line, box.line = some line → line.Begun

variable {box : DialogueBox Float}

theorem begun_of_start {params : RevealParams Float} {speaker text : Option String}
    (h : box.line = some (.start params speaker text)) : box.Begun := by
  intro line hline
  cases h.symm.trans hline
  exact ⟨params, speaker, text, rfl⟩

theorem hide_begun (box : DialogueBox Float) : box.hide.Begun := fun _ hline => by cases hline

theorem Begun.elapse (h : box.Begun) {line : RevealedLine Float} (hline : box.line = some line)
    (elapsed : Float) : Begun { box with line := some { line with elapsed := elapsed } } := by
  intro line' hline'
  cases hline'
  exact h line hline

theorem Begun.update (h : box.Begun) (dt : Float) : (box.update dt).Begun := by
  unfold DialogueBox.update
  split
  · next line hline =>
    split
    · exact h
    · exact h.elapse hline _
  · exact h

/-- Time takes no line out of the box. -/
theorem line_update (box : DialogueBox Float) (dt : Float) :
    (box.update dt).line.isSome = box.line.isSome := by
  unfold DialogueBox.update
  split
  · next line hline =>
    split
    · rfl
    · simp [hline]
  · rfl

end DialogueBox

end VisualNovel

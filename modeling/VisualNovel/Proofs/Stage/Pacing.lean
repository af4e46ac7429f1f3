import VisualNovel.Proofs.Number.Exact
import VisualNovel.Proofs.Stage.Revealing

/-!
How the typewriter spreads a line over time, in exact arithmetic. Every character that can be seen
takes its even share, and every pause is spent once: before the next character that can be seen, or,
if there is none, after the last one. So the time of a line is the sum of what its characters take,
and the fractions of that time are all reached on the way, the last of them at the very end unless a
pause is left over.
-/

namespace VisualNovel

/-- No pause is negative. -/
structure RevealParams.Patient (rp : RevealParams ℝ) : Prop where
  short : 0 ≤ rp.shortPause
  long : 0 ≤ rp.longPause
  ellipsis : 0 ≤ rp.ellipsisPause

theorem RevealParams.standard_patient : (standard : RevealParams ℝ).Patient := by
  constructor <;> simp [standard, Scalar.decimal_real] <;> norm_num

namespace Typewriter

/-! ### Marks -/

/-- What a text is made of, as far as time goes. -/
inductive Mark where
  | lineEnd
  | ellipsis
  | single (c : Char)
  deriving Repr, DecidableEq

/-- The marks of a text. Groups of three dots are found greedily from the left. -/
def marks : List Char → List Mark
  | [] => []
  | '\n' :: rest => .lineEnd :: marks rest
  | '.' :: '.' :: '.' :: rest => .ellipsis :: marks rest
  | c :: rest => .single c :: marks rest

/-- The characters outside of groups that are followed by a short pause. -/
def shortMarks : List Mark := [.single ',', .single ';', .single ':']

/-- The characters outside of groups that are followed by a long pause. -/
def longMarks : List Mark := [.single '.', .single '!', .single '?']

/-- The pause that follows a mark. That of a group of dots stands inside it. -/
def Mark.pause (rp : RevealParams ℝ) (m : Mark) : ℝ :=
  if m ∈ shortMarks then rp.shortPause
  else if m ∈ longMarks ∨ m = .lineEnd then rp.longPause
  else 0

/-- A pause of positive length is pending at the end: it follows the last character that can be
    seen, or a line end behind that. -/
def Pending (rp : RevealParams ℝ) (ms : List Mark) : Prop :=
  ∃ before m after, ms = before ++ m :: after ∧ (∀ m' ∈ after, m' = .lineEnd) ∧ 0 < m.pause rp

variable {rp : RevealParams ℝ} {carry : ℝ} {text : List Char}

theorem pending_cons_iff {m : Mark} {ms : List Mark} :
    Pending rp (m :: ms) ↔ ((∀ m' ∈ ms, m' = .lineEnd) ∧ 0 < m.pause rp) ∨ Pending rp ms := by
  constructor
  · rintro ⟨before, m', after, heq, hends, hpause⟩
    cases before with
    | nil =>
      cases heq
      exact .inl ⟨hends, hpause⟩
    | cons m₀ before =>
      cases heq
      exact .inr ⟨before, m', after, rfl, hends, hpause⟩
  · rintro (⟨hends, hpause⟩ | ⟨before, m', after, rfl, hends, hpause⟩)
    · exact ⟨[], m, ms, rfl, hends, hpause⟩
    · exact ⟨m :: before, m', after, rfl, hends, hpause⟩

theorem not_pending_nil : ¬ Pending rp [] := by
  rintro ⟨before, m, after, heq, -, -⟩
  simp at heq

theorem pause_lineEnd : Mark.lineEnd.pause rp = rp.longPause := by simp [Mark.pause, shortMarks]

theorem pause_ellipsis : Mark.ellipsis.pause rp = 0 := by
  simp [Mark.pause, shortMarks, longMarks]

theorem pause_single (c : Char) : (Mark.single c).pause rp = pauseAfter rp c := by
  simp [Mark.pause, pauseAfter, shortMarks, longMarks, or_assoc]

theorem pause_nonneg (hrp : rp.Patient) (m : Mark) : 0 ≤ m.pause rp := by
  unfold Mark.pause
  split
  · exact hrp.short
  split
  · exact hrp.long
  · exact le_rfl

/-! ### Times -/

theorem base_eq (rp : RevealParams ℝ) : base rp = 1 / max (1 / 10 ^ 6) rp.charsPerSecond := by
  unfold base
  rw [Scalar.one_real, Scalar.greatest_real, Scalar.decimal_real]
  norm_num

theorem base_pos (rp : RevealParams ℝ) : 0 < base rp := by
  rw [base_eq]
  have hpos : (0 : ℝ) < 1 / 10 ^ 6 := by norm_num
  exact one_div_pos.2 (lt_max_of_lt_left hpos)

/-- Every character that can be seen takes a time, and the pause left over is none or positive. -/
theorem times_pos (hrp : rp.Patient) (hcarry : 0 ≤ carry) (text : List Char) :
    (∀ t ∈ (times rp carry text).1, 0 < t) ∧ 0 ≤ (times rp carry text).2 := by
  have hbase := base_pos rp
  fun_induction times rp carry text with
  | case1 carry => exact ⟨fun _ ht => absurd ht List.not_mem_nil, hcarry⟩
  | case2 carry rest ih => exact ih (add_nonneg hcarry hrp.long)
  | case3 carry rest ts left hrest ih =>
    rw [hrest] at ih
    obtain ⟨hts, hleft⟩ := ih (by simp)
    have hellipsis := hrp.ellipsis
    refine ⟨fun t ht => ?_, hleft⟩
    simp only [List.mem_cons] at ht
    rcases ht with rfl | rfl | rfl | ht
    · exact add_pos_of_pos_of_nonneg hbase hcarry
    · exact add_pos_of_pos_of_nonneg hbase hellipsis
    · exact hbase
    · exact hts t ht
  | case4 carry c rest hline hdots ts left hrest ih =>
    rw [hrest] at ih
    obtain ⟨hts, hleft⟩ := ih (by rw [← pause_single]; exact pause_nonneg hrp _)
    refine ⟨fun t ht => ?_, hleft⟩
    rcases List.mem_cons.1 ht with rfl | ht
    · exact add_pos_of_pos_of_nonneg hbase hcarry
    · exact hts t ht

/-- The pauses of some marks, those inside groups of dots included. -/
def pauses (rp : RevealParams ℝ) (ms : List Mark) : ℝ :=
  (ms.map (Mark.pause rp)).sum + ms.count .ellipsis * rp.ellipsisPause

theorem pauses_cons (m : Mark) (ms : List Mark) :
    pauses rp (m :: ms) =
      m.pause rp + (if m = .ellipsis then rp.ellipsisPause else 0) + pauses rp ms := by
  unfold pauses
  rw [List.map_cons, List.sum_cons, List.count_cons]
  by_cases hm : m = .ellipsis
  · simp only [hm, BEq.rfl, if_true]
    push_cast
    ring
  · simp only [beq_eq_false_iff_ne.2 hm, Bool.false_eq_true, if_neg hm, if_false, Nat.add_zero]
    ring

/-- No time is lost and none is spent twice. -/
theorem times_sum (rp : RevealParams ℝ) (carry : ℝ) (text : List Char) :
    (times rp carry text).1.sum + (times rp carry text).2 =
      carry + (text.filter (· != '\n')).length * base rp + pauses rp (marks text) := by
  fun_induction times rp carry text with
  | case1 carry => simp [marks, pauses]
  | case2 carry rest ih =>
    rw [ih, marks, pauses_cons, pause_lineEnd, List.filter_cons_of_neg (by simp), if_neg (by simp)]
    ring
  | case3 carry rest ts left hrest ih =>
    rw [hrest, Scalar.zero_real] at ih
    have hvisible (rest : List Char) : ('.' :: rest).filter (· != '\n') =
        '.' :: rest.filter (· != '\n') := rfl
    rw [marks, pauses_cons, pause_ellipsis, if_pos rfl]
    simp only [List.sum_cons, hvisible, List.length_cons]
    push_cast
    linarith
  | case4 carry c rest hline hdots ts left hrest ih =>
    rw [hrest] at ih
    rw [marks, pauses_cons, pause_single, if_neg (by simp),
      List.filter_cons_of_pos (by simpa using hline)]
    · simp only [List.sum_cons, List.length_cons]
      push_cast
      linarith
    · exact hline
    · exact hdots

/-- What is left over at the end is pending there, or was pending from the start, with nothing but
    line ends since. -/
theorem left_pos_iff (hrp : rp.Patient) (hcarry : 0 ≤ carry) (text : List Char) :
    0 < (times rp carry text).2 ↔
      (0 < carry ∧ ∀ m ∈ marks text, m = .lineEnd) ∨ Pending rp (marks text) := by
  fun_induction times rp carry text with
  | case1 carry => simp [marks, not_pending_nil]
  | case2 carry rest ih =>
    have hsum : 0 < carry + rp.longPause ↔ 0 < carry ∨ 0 < rp.longPause := by
      have hlong := hrp.long
      grind
    rw [ih (add_nonneg hcarry hrp.long), marks, pending_cons_iff, pause_lineEnd, hsum]
    simp only [List.mem_cons, forall_eq_or_imp, true_and]
    tauto
  | case3 carry rest ts left hrest ih =>
    rw [hrest] at ih
    rw [marks, pending_cons_iff, pause_ellipsis]
    simpa using ih (by simp)
  | case4 carry c rest hline hdots ts left hrest ih =>
    rw [hrest, ← pause_single] at ih
    rw [marks, pending_cons_iff, ih (pause_nonneg hrp _)]
    · simp [and_comm]
    · exact hline
    · exact hdots

/-! ### Fractions -/

/-- Sums of more and more of a list do not fall, and stay between nothing and the whole. -/
theorem runningSums_bounds (acc : ℝ) {ts : List ℝ} (hts : ∀ t ∈ ts, 0 ≤ t) :
    (acc :: runningSums acc ts).Pairwise (· ≤ ·) ∧
      ∀ x ∈ acc :: runningSums acc ts, acc ≤ x ∧ x ≤ acc + ts.sum := by
  induction ts generalizing acc with
  | nil => simp [runningSums]
  | cons t rest ih =>
    obtain ⟨ht, hrest⟩ := List.forall_mem_cons.1 hts
    obtain ⟨hsorted, hbounds⟩ := ih (acc + t) hrest
    have hsum := List.sum_nonneg hrest
    have hmore (x : ℝ) (hx : x ∈ runningSums acc (t :: rest)) :
        acc ≤ x ∧ x ≤ acc + (t :: rest).sum := by
      obtain ⟨hlow, hhigh⟩ := hbounds x hx
      rw [List.sum_cons]
      exact ⟨by linarith, by linarith⟩
    refine ⟨List.pairwise_cons.2 ⟨fun x hx => (hmore x hx).1, hsorted⟩, fun x hx => ?_⟩
    rcases List.mem_cons.1 hx with rfl | hx
    · rw [List.sum_cons]
      exact ⟨le_rfl, by linarith⟩
    · exact hmore x hx

/-- The last of the sums is that of the whole list. -/
theorem getLast?_runningSums (acc : ℝ) (ts : List ℝ) :
    (acc :: runningSums acc ts).getLast? = some (acc + ts.sum) := by
  induction ts generalizing acc with
  | nil => simp [runningSums]
  | cons t rest ih =>
    rw [runningSums, List.getLast?_cons_cons, ih, List.sum_cons, add_assoc]

/-! ### The timing of a line -/

theorem pauses_eq (rp : RevealParams ℝ) (ms : List Mark) :
    pauses rp ms = ms.count .lineEnd * rp.longPause + ms.count .ellipsis * rp.ellipsisPause +
      ms.countP (· ∈ shortMarks) * rp.shortPause + ms.countP (· ∈ longMarks) * rp.longPause := by
  have hpause (m : Mark) : m.pause rp = (if m = .lineEnd then rp.longPause else 0) +
      (if m ∈ shortMarks then rp.shortPause else 0) +
      if m ∈ longMarks then rp.longPause else 0 := by
    cases m with
    | lineEnd => simp [Mark.pause, shortMarks, longMarks]
    | ellipsis => simp [Mark.pause, shortMarks, longMarks]
    | single c =>
      by_cases hshort : Mark.single c ∈ shortMarks
      · have hlong : Mark.single c ∉ longMarks := by
          simp only [shortMarks, List.mem_cons, Mark.single.injEq, List.not_mem_nil,
            or_false] at hshort
          rcases hshort with rfl | rfl | rfl <;> decide
        simp [Mark.pause, hshort, hlong]
      · simp [Mark.pause, hshort]
  induction ms with
  | nil => simp [pauses]
  | cons m ms ih =>
    rw [pauses_cons, ih, hpause]
    simp only [List.count_cons, List.countP_cons, beq_iff_eq, decide_eq_true_eq]
    push_cast
    split_ifs <;> ring

theorem count_lineEnd_marks (text : List Char) : (marks text).count .lineEnd = text.count '\n' := by
  fun_induction marks text with
  | case1 => rfl
  | case2 rest ih => simp [ih]
  | case3 rest ih => simpa using ih
  | case4 c rest hline hdots ih => simpa [show c ≠ '\n' from fun h => hline h] using ih

/-- The times of the characters and the pause left over make up the total. -/
theorem timing_eq (hrp : rp.Patient) (text : List Char) :
    (timing rp text).total = (times rp 0 text).1.sum + (times rp 0 text).2 ∧
      (timing rp text).fractions = (0 :: runningSums 0 (times rp 0 text).1).map
        (· / ((times rp 0 text).1.sum + (times rp 0 text).2)) := by
  obtain ⟨hts, hleft⟩ := times_pos hrp le_rfl text
  have hsum := List.sum_nonneg fun t ht => (hts t ht).le
  unfold timing
  simp only [Scalar.zero_real, Scalar.sum_real]
  split
  · next hnone =>
    have htotal : (times rp 0 text).1.sum + (times rp 0 text).2 = 0 :=
      le_antisymm (Scalar.lessEq_real.1 hnone) (add_nonneg hsum hleft)
    have hnil : (times rp 0 text).1 = [] := by
      by_contra hne
      linarith [List.sum_pos _ hts hne]
    rw [htotal, hnil]
    simp [runningSums]
  · simp

theorem total_nonneg (hrp : rp.Patient) (text : List Char) : 0 ≤ (timing rp text).total := by
  obtain ⟨hts, hleft⟩ := times_pos hrp le_rfl text
  rw [(timing_eq hrp text).1]
  exact add_nonneg (List.sum_nonneg fun t ht => (hts t ht).le) hleft

theorem fractions_sorted (hrp : rp.Patient) (text : List Char) :
    (timing rp text).fractions.Pairwise (· ≤ ·) := by
  obtain ⟨hts, -⟩ := times_pos hrp le_rfl text
  obtain ⟨htotal, hfractions⟩ := timing_eq hrp text
  obtain ⟨hsorted, -⟩ := runningSums_bounds 0 fun t ht => (hts t ht).le
  rw [hfractions, ← htotal]
  exact hsorted.map _ fun x y hxy => div_le_div_of_nonneg_right hxy (total_nonneg hrp text)

/-- There is a fraction for each number of characters that can be seen, none included. -/
theorem fractions_length (hrp : rp.Patient) (text : List Char) :
    (timing rp text).fractions.length = (text.filter (· != '\n')).length + 1 := by
  rw [(timing_eq hrp text).2, List.length_map, List.length_cons, runningSums_length, times_length]

/-- The account of a line. Its fractions begin with none, do not fall, stay within the whole, and
    are one more than there are characters to be seen. Its time is that of these characters at their
    even speed, a long pause for each line end, a pause for each group of three dots, and the pauses
    of what stands outside of groups. It is over with the last of its characters, unless a pause is
    still pending then. -/
theorem timing_spends_each_pause (hrp : rp.Patient) (text : List Char) :
    (timing rp text).fractions.head? = some 0 ∧
      (timing rp text).fractions.Pairwise (· ≤ ·) ∧
      (∀ fraction ∈ (timing rp text).fractions, fraction ≤ 1) ∧
      (timing rp text).fractions.length = (text.filter (· != '\n')).length + 1 ∧
      (timing rp text).total =
        (text.filter (· != '\n')).length / max (1 / 10 ^ 6) rp.charsPerSecond +
          text.count '\n' * rp.longPause +
          (marks text).count .ellipsis * rp.ellipsisPause +
          (marks text).countP (· ∈ shortMarks) * rp.shortPause +
          (marks text).countP (· ∈ longMarks) * rp.longPause ∧
      (text ≠ [] → 0 < (timing rp text).total →
        ((timing rp text).fractions.getLast? = some 1 ↔ ¬ Pending rp (marks text))) := by
  obtain ⟨htotal, hfractions⟩ := timing_eq hrp text
  obtain ⟨hts, hleft⟩ := times_pos hrp le_rfl text
  obtain ⟨-, hbounds⟩ := runningSums_bounds 0 fun t ht => (hts t ht).le
  have hspent := times_sum rp 0 text
  have hpending : 0 < (times rp 0 text).2 ↔ Pending rp (marks text) := by
    simpa using left_pos_iff hrp le_rfl text
  refine ⟨?_, fractions_sorted hrp text, fun fraction hfraction => ?_, fractions_length hrp text,
    ?_, fun _ hpositive => ?_⟩
  · simp [hfractions]
  · rw [hfractions] at hfraction
    obtain ⟨x, hx, rfl⟩ := List.mem_map.1 hfraction
    rw [← htotal]
    refine div_le_one_of_le₀ ?_ (total_nonneg hrp text)
    linarith [(hbounds x hx).2]
  · rw [htotal, hspent, pauses_eq, count_lineEnd_marks, base_eq]
    ring
  · rw [hfractions, List.getLast?_map, getLast?_runningSums, zero_add, Option.map_some,
      Option.some_inj, ← htotal, div_eq_one_iff_eq hpositive.ne', htotal, ← hpending, not_lt]
    constructor
    · intro heq
      linarith
    · intro hnone
      linarith

/-- Five characters that can be seen, the last three a group of dots, and a line end that leaves its
    pause over. -/
theorem timing_spends_each_pause_hi :
    let rp : RevealParams ℝ := .standard
    let text := ['H', 'i', '.', '.', '.', '\n']
    rp.Patient ∧ (timing rp text).fractions.length = 6 ∧ (timing rp text).total = 7 / 10 ∧
      Pending rp (marks text) ∧ (timing rp text).fractions.getLast? ≠ some 1 := by
  intro rp text
  have hmarks : marks text = [.single 'H', .single 'i'] ++ [.ellipsis, .lineEnd] := rfl
  have hpatient : rp.Patient := RevealParams.standard_patient
  obtain ⟨-, -, -, hlength, htotal, hlast⟩ := timing_spends_each_pause hpatient text
  have hseven : (timing rp text).total = 7 / 10 := by
    rw [htotal, hmarks]
    simp [rp, text, RevealParams.standard, Scalar.decimal_real, shortMarks, longMarks]
    norm_num
  have hpending : Pending rp (marks text) := by
    refine ⟨[.single 'H', .single 'i', .ellipsis], .lineEnd, [], rfl, by simp, ?_⟩
    simp [rp, Mark.pause, shortMarks, RevealParams.standard, Scalar.decimal_real]
  have hpositive : 0 < (timing rp text).total := by
    rw [hseven]
    norm_num
  exact ⟨hpatient, hlength, hseven, hpending,
    fun h => (hlast (by simp [text]) hpositive).1 h hpending⟩

end Typewriter

end VisualNovel

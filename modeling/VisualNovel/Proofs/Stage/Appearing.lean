import VisualNovel.Proofs.Stage.Pacing

/-!
A line as it appears in the box, in exact arithmetic. However time passes and however often the
player presses, what is shown is a beginning of the text that does not get shorter, with as many
characters that can be seen as the line counts; and two presses at most are needed until one is for
the story.
-/

namespace VisualNovel

/-! ### Counting by halving -/

/-- The entries of a table before position `n` do not exceed `x`, and those from there on do. -/
structure SplitsAt (table : Array ℝ) (x : ℝ) (n : Nat) : Prop where
  le_size : n ≤ table.size
  lt_iff : ∀ i (h : i < table.size), i < n ↔ table[i] ≤ x

theorem getElem_le_getElem {table : Array ℝ} (hsorted : table.toList.Pairwise (· ≤ ·)) {i j : Nat}
    (hij : i ≤ j) (hj : j < table.size) : table[i] ≤ table[j] := by
  rcases Nat.lt_or_eq_of_le hij with hlt | rfl
  · exact List.pairwise_iff_getElem.1 hsorted i j (by simpa using hij.trans_lt hj)
      (by simpa using hj) hlt
  · exact le_rfl

/-- Halving finds where an ascending table splits, if that is between the bounds. -/
theorem splitsAt_countUpTo {table : Array ℝ} {x : ℝ} (hsorted : table.toList.Pairwise (· ≤ ·))
    (lo hi : Nat) (hle : lo ≤ hi) (hhi : hi ≤ table.size)
    (hbelow : ∀ i (h : i < table.size), i < lo → table[i] ≤ x)
    (habove : ∀ i (h : i < table.size), hi ≤ i → x < table[i]) :
    SplitsAt table x (countUpTo table x lo hi) := by
  fun_induction countUpTo table x lo hi with
  | case1 lo hi hlt mid y hy hless ih =>
    obtain ⟨hmid, rfl⟩ := Array.getElem?_eq_some_iff.1 hy
    refine ih (by omega) (by omega) hbelow fun i hi' hmidi => ?_
    exact (Scalar.less_real.1 hless).trans_le (getElem_le_getElem hsorted hmidi hi')
  | case2 lo hi hlt mid y hy hless ih =>
    obtain ⟨hmid, rfl⟩ := Array.getElem?_eq_some_iff.1 hy
    refine ih (by omega) hhi (fun i hi' hlo => ?_) habove
    exact (getElem_le_getElem hsorted (Nat.le_of_lt_succ hlo) hmid).trans
      (not_lt.1 (mt Scalar.less_real.2 hless))
  | case3 lo hi hlt mid hmid ih =>
    have hnone : table.size ≤ mid := Array.getElem?_eq_none_iff.1 hmid
    omega
  | case4 lo hi hlt =>
    refine ⟨by omega, fun i hi' => ⟨hbelow i hi', fun hle => ?_⟩⟩
    by_contra hlo
    exact absurd hle (not_le.2 (habove i hi' (by omega)))

/-- A larger number splits a table no earlier. -/
theorem SplitsAt.mono {table : Array ℝ} {x x' : ℝ} {n n' : Nat} (h : SplitsAt table x n)
    (h' : SplitsAt table x' n') (hle : x ≤ x') : n ≤ n' := by
  by_contra hlt
  have hsize : n' < table.size := by
    have := h.le_size
    omega
  have hentry := (h.lt_iff n' hsize).1 (by omega)
  exact absurd ((h'.lt_iff n' hsize).2 (hentry.trans hle)) (Nat.lt_irrefl n')

/-! ### Positions of characters -/

/-- Before the character at the `n`-th of the noted positions there are `n` that can be seen. -/
theorem position_spec (chars : List Char) {start n position : Nat}
    (h : (((chars.zipIdx start).filter fun (c, _) => c != '\n').map (·.2))[n]? = some position) :
    ∃ i c, position = start + i ∧ chars[i]? = some c ∧ c ≠ '\n' ∧
      ((chars.take i).filter (· != '\n')).length = n := by
  induction chars generalizing start n with
  | nil => simp at h
  | cons c rest ih =>
    rw [List.zipIdx_cons] at h
    by_cases hc : c = '\n'
    · rw [List.filter_cons_of_neg (by simp [hc])] at h
      obtain ⟨i, d, rfl, hd, hne, hcount⟩ := ih h
      refine ⟨i + 1, d, by omega, hd, hne, ?_⟩
      rw [List.take_succ_cons, List.filter_cons_of_neg (by simp [hc]), hcount]
    · rw [List.filter_cons_of_pos (by simpa using hc), List.map_cons] at h
      cases n with
      | zero =>
        obtain rfl : start = position := by simpa using h
        exact ⟨0, c, rfl, rfl, hc, rfl⟩
      | succ n =>
        obtain ⟨i, d, rfl, hd, hne, hcount⟩ := ih h
        refine ⟨i + 1, d, by omega, hd, hne, ?_⟩
        rw [List.take_succ_cons, List.filter_cons_of_pos (by simpa using hc), List.length_cons,
          hcount]

/-- Up to that character and with it there is one more. -/
theorem length_filter_take_succ {chars : List Char} {i : Nat} {c : Char} (hc : chars[i]? = some c)
    (hne : c ≠ '\n') : ((chars.take (i + 1)).filter (· != '\n')).length =
      ((chars.take i).filter (· != '\n')).length + 1 := by
  rw [List.take_add_one, hc, List.filter_append, List.length_append]
  simp [hne]

namespace RevealedLine

/-! ### A line at a moment -/

/-- A line a time after it came into the box. -/
noncomputable def since (params : RevealParams ℝ) (speaker : Option String) (text : String)
    (elapsed : ℝ) : RevealedLine ℝ :=
  { start params speaker (some text) with elapsed }

variable {params : RevealParams ℝ} {speaker : Option String} {text : String} {t t' : ℝ}

theorem isFinished_since_iff : (since params speaker text t).isFinished = true ↔
    (since params speaker text t).duration - 1 / 10 ^ 4 ≤ t := by
  unfold isFinished
  rw [Scalar.lessEq_real, Scalar.decimal_real, Nat.cast_one]
  rfl

/-- A line that is complete stays so. -/
theorem isFinished_since_mono (hle : t ≤ t') (h : (since params speaker text t).isFinished = true) :
    (since params speaker text t').isFinished = true :=
  isFinished_since_iff.2 ((isFinished_since_iff.1 h).trans hle)

/-- A line that has had all of its time is complete. -/
theorem isFinished_since_duration :
    (since params speaker text (since params speaker text t).duration).isFinished = true := by
  refine isFinished_since_iff.2 ?_
  have hslack : (0 : ℝ) ≤ 1 / 10 ^ 4 := by norm_num
  exact sub_le_self _ hslack

/-- A line that is still appearing has a time of its own. -/
theorem duration_pos (ht : 0 ≤ t) (h : (since params speaker text t).isFinished = false) :
    0 < (since params speaker text t).duration := by
  have hnot := mt isFinished_since_iff.2 (Bool.eq_false_iff.1 h)
  have hslack : (0 : ℝ) < 1 / 10 ^ 4 := by norm_num
  linarith [not_le.1 hnot]

variable (params speaker text t) in
/-- A line notes a position for each character that can be seen. -/
theorem length_visible_since : (since params speaker text t).visible.length =
    (text.toList.filter (· != '\n')).length := by
  show (((text.toList.zipIdx).filter fun (c, _) => c != '\n').map (·.2)).length = _
  rw [List.length_map, Typewriter.zipIdx_filter_length]

variable (speaker text t) in
theorem splitsAt_since (hparams : params.Patient) (x : ℝ) :
    let table := (since params speaker text t).fractions.toArray
    SplitsAt table x (countUpTo table x 0 table.size) :=
  splitsAt_countUpTo (Typewriter.fractions_sorted hparams text.toList) 0 _ (Nat.zero_le _)
    (Nat.le_refl _) (fun i _ hi => absurd hi (Nat.not_lt_zero i))
    (fun _ hi hsize => absurd hi (Nat.not_lt.2 hsize))

theorem visibleCount_since_of_finished (h : (since params speaker text t).isFinished = true) :
    (since params speaker text t).visibleCount = (since params speaker text t).visible.length := by
  unfold visibleCount
  rw [h]
  rfl

theorem visibleCount_since_of_not_finished (h : (since params speaker text t).isFinished = false) :
    let table := (since params speaker text t).fractions.toArray
    (since params speaker text t).visibleCount =
      countUpTo table (t / (since params speaker text t).duration) 0 table.size - 1 := by
  unfold visibleCount
  rw [h]
  rfl

variable (speaker text t) in
theorem visibleCount_since_le (hparams : params.Patient) :
    (since params speaker text t).visibleCount ≤ (since params speaker text t).visible.length := by
  cases h : (since params speaker text t).isFinished with
  | true => exact Nat.le_of_eq (visibleCount_since_of_finished h)
  | false =>
    rw [visibleCount_since_of_not_finished h]
    have hle := (splitsAt_since speaker text t hparams
      (t / (since params speaker text t).duration)).le_size
    have hlength : (since params speaker text t).fractions.length =
        (text.toList.filter (· != '\n')).length + 1 := Typewriter.fractions_length hparams _
    rw [length_visible_since]
    exact Nat.sub_le_of_le_add (hle.trans (by rw [List.size_toArray, hlength]))

/-- More and more of a line has appeared. -/
theorem visibleCount_since_mono (hparams : params.Patient) (ht : 0 ≤ t) (hle : t ≤ t') :
    (since params speaker text t).visibleCount ≤ (since params speaker text t').visibleCount := by
  cases h' : (since params speaker text t').isFinished with
  | true =>
    rw [visibleCount_since_of_finished h']
    exact visibleCount_since_le speaker text t hparams
  | false =>
    have h : (since params speaker text t).isFinished = false := by
      rw [← Bool.not_eq_true]
      intro hfinished
      rw [isFinished_since_mono hle hfinished] at h'
      cases h'
    rw [visibleCount_since_of_not_finished h, visibleCount_since_of_not_finished h']
    refine Nat.sub_le_sub_right ((splitsAt_since speaker text t hparams _).mono
      (splitsAt_since speaker text t' hparams _) ?_) 1
    exact div_le_div_of_nonneg_right hle (duration_pos ht h).le

/-! ### What is shown of it -/

/-- What is shown depends on the time by the count alone. -/
theorem visibleText_since_congr
    (h : (since params speaker text t).visibleCount = (since params speaker text t').visibleCount) :
    (since params speaker text t).visibleText = (since params speaker text t').visibleText := by
  unfold visibleText
  rw [h]
  rfl

variable (speaker text t) in
/-- A beginning of the text is shown, with as many characters that can be seen as the line
    counts. -/
theorem visibleText_since (hparams : params.Patient) :
    ∃ shown, (since params speaker text t).visibleText = some shown ∧
      shown.toList <+: text.toList ∧
      (shown.toList.filter (· != '\n')).length = (since params speaker text t).visibleCount := by
  have hle := visibleCount_since_le speaker text t hparams
  unfold visibleText
  dsimp only
  split
  · next hall =>
    refine ⟨text, rfl, List.prefix_rfl, ?_⟩
    rw [← length_visible_since params speaker text t]
    exact Nat.le_antisymm hall hle
  · next hsome =>
    split
    · next hzero => exact ⟨"", rfl, List.nil_prefix, hzero.symm⟩
    · next hzero =>
      split
      · next last hlast =>
        obtain ⟨i, c, rfl, hc, hne, hcount⟩ := position_spec text.toList hlast
        refine ⟨_, rfl, ?_, ?_⟩
        · rw [String.toList_ofList]
          exact List.take_prefix _ _
        · rw [String.toList_ofList, Nat.zero_add, length_filter_take_succ hc hne, hcount]
          omega
      · next hnone =>
        have hout := List.getElem?_eq_none_iff.1 hnone
        omega

/-- What is shown agrees with what the line counts, and nothing that is looked up for it is
    missing. -/
structure Faithful (line : RevealedLine ℝ) (text shown : String) : Prop where
  visibleText : line.visibleText = some shown
  isPrefix : shown.toList <+: text.toList
  count : (shown.toList.filter (· != '\n')).length = line.visibleCount
  count_le : line.visibleCount ≤ (text.toList.filter (· != '\n')).length
  whole : shown = text ↔ line.visibleCount = (text.toList.filter (· != '\n')).length
  located : ∀ n < line.visibleCount, ∃ i c,
    line.visible[n]? = some i ∧ text.toList[i]? = some c ∧ c ≠ '\n'
  duration_pos : line.isFinished = false → 0 < line.duration

variable (speaker text) in
theorem faithful_since (hparams : params.Patient) (ht : 0 ≤ t) :
    ∃ shown, (since params speaker text t).Faithful text shown := by
  obtain ⟨shown, hshown, hbegins, hcount⟩ := visibleText_since speaker text t hparams
  have hle := visibleCount_since_le speaker text t hparams
  refine ⟨shown, hshown, hbegins, hcount, length_visible_since params speaker text t ▸ hle,
    ⟨?_, fun hall => ?_⟩, fun n hn => ?_, duration_pos ht⟩
  · rintro rfl
    exact hcount.symm
  · have htext : (since params speaker text t).visibleText = some text := by
      unfold RevealedLine.visibleText
      rw [hall, ← length_visible_since params speaker text t]
      exact if_pos (Nat.le_refl _)
    exact Option.some_inj.1 (hshown.symm.trans htext)
  · have hposition := List.getElem?_eq_getElem (hn.trans_le hle)
    obtain ⟨i, c, hi, hc, hne, -⟩ := position_spec text.toList hposition
    exact ⟨_, c, hposition, by rwa [hi, Nat.zero_add], hne⟩

/-- What has been shown once is not taken back. -/
theorem Faithful.prefix_of_le (hparams : params.Patient) (ht : 0 ≤ t) (hle : t ≤ t')
    {shown shown' : String} (h : (since params speaker text t).Faithful text shown)
    (h' : (since params speaker text t').Faithful text shown') :
    shown.toList <+: shown'.toList := by
  rcases Nat.lt_or_eq_of_le (visibleCount_since_mono hparams ht hle) with hlt | heq
  · rcases List.prefix_or_prefix_of_prefix h.isPrefix h'.isPrefix with hbefore | hafter
    · exact hbefore
    · have hfewer := (hafter.filter (· != '\n')).length_le
      rw [h.count, h'.count] at hfewer
      exact absurd hlt (Nat.not_lt.2 hfewer)
  · have hsame := h.visibleText.symm.trans ((visibleText_since_congr heq).trans h'.visibleText)
    rw [Option.some_inj.1 hsame]

end RevealedLine

/-! ### The box -/

/-- What happens to a line in the box. -/
inductive Touch (α : Type) where
  | time (dt : α)
  | press

/-- Time does not run backwards. -/
def Touch.Forward : Touch ℝ → Prop
  | .time dt => 0 ≤ dt
  | .press => True

namespace DialogueBox

/-- The box after one touch. -/
def touch {α : Type} [Scalar α] (box : DialogueBox α) : Touch α → DialogueBox α
  | .time dt => box.update dt
  | .press => box.press.2

/-- The box after some touches. -/
def after {α : Type} [Scalar α] (box : DialogueBox α) (touches : List (Touch α)) : DialogueBox α :=
  touches.foldl touch box

/-- The box shows a line some time after it came, within the time of the line. -/
structure Shows (box : DialogueBox ℝ) (params : RevealParams ℝ) (speaker : Option String)
    (text : String) (t : ℝ) : Prop where
  line : box.line = some (.since params speaker text t)
  nonneg : 0 ≤ t
  le_duration : t ≤ (RevealedLine.since params speaker text t).duration

variable {box : DialogueBox ℝ} {params : RevealParams ℝ} {speaker : Option String} {text : String}
  {t : ℝ}

variable (speaker text) in
theorem shows_show (hparams : box.params.Patient) :
    (box.show speaker (some text)).Shows box.params speaker text 0 where
  line := by
    unfold «show» RevealedLine.since RevealedLine.start
    simp
  nonneg := le_rfl
  le_duration := Typewriter.total_nonneg hparams text.toList

/-- A press on a complete line is for the story. -/
theorem Shows.press_of_finished (h : box.Shows params speaker text t)
    (hfinished : (RevealedLine.since params speaker text t).isFinished = true) :
    box.press = (true, box) := by
  unfold press complete
  rw [h.line]
  simp [hfinished]

/-- A press on a line that is still appearing completes it. -/
theorem Shows.press_of_not_finished (h : box.Shows params speaker text t)
    (hfinished : (RevealedLine.since params speaker text t).isFinished = false) :
    box.press.2.Shows params speaker text (RevealedLine.since params speaker text t).duration := by
  refine ⟨?_, h.nonneg.trans h.le_duration, le_rfl⟩
  unfold press complete
  rw [h.line]
  simp only [Option.isNone_some, hfinished, Bool.false_eq_true, if_false]
  rfl

/-- A touch takes a line further, if anywhere. -/
theorem Shows.touch (h : box.Shows params speaker text t) {x : Touch ℝ} (hx : x.Forward) :
    ∃ t' ≥ t, (box.touch x).Shows params speaker text t' := by
  cases x with
  | time dt =>
    simp only [DialogueBox.touch, update, h.line]
    split
    · exact ⟨t, le_rfl, h⟩
    · have hdt : 0 ≤ dt := hx
      rw [Scalar.least_real]
      have hlater : t ≤ min (RevealedLine.since params speaker text t).duration (t + dt) :=
        le_min h.le_duration (le_add_of_nonneg_right hdt)
      exact ⟨_, hlater, rfl, h.nonneg.trans hlater, min_le_left _ _⟩
  | press =>
    cases hfinished : (RevealedLine.since params speaker text t).isFinished with
    | true =>
      refine ⟨t, le_rfl, ?_⟩
      simp only [DialogueBox.touch, h.press_of_finished hfinished]
      exact h
    | false => exact ⟨_, h.le_duration, h.press_of_not_finished hfinished⟩

theorem Shows.after (h : box.Shows params speaker text t) {touches : List (Touch ℝ)}
    (htouches : ∀ x ∈ touches, x.Forward) :
    ∃ t' ≥ t, (box.after touches).Shows params speaker text t' := by
  induction touches generalizing box t with
  | nil => exact ⟨t, le_rfl, h⟩
  | cons x rest ih =>
    obtain ⟨hx, hrest⟩ := List.forall_mem_cons.1 htouches
    obtain ⟨t₁, hle₁, h₁⟩ := h.touch hx
    obtain ⟨t₂, hle₂, h₂⟩ := ih h₁ hrest
    exact ⟨t₂, hle₁.trans hle₂, h₂⟩

theorem after_append {α : Type} [Scalar α] (box : DialogueBox α) (touches more : List (Touch α)) :
    box.after (touches ++ more) = (box.after touches).after more := List.foldl_append

/-- Two presses at most are needed until one is for the story. -/
theorem Shows.press_press (h : box.Shows params speaker text t) :
    box.press.1 = true ∨ box.press.2.press.1 = true := by
  cases hfinished : (RevealedLine.since params speaker text t).isFinished with
  | true => exact .inl (by rw [h.press_of_finished hfinished])
  | false =>
    have hcomplete := h.press_of_not_finished hfinished
    exact .inr (by rw [hcomplete.press_of_finished RevealedLine.isFinished_since_duration])

/-- A line that came into the box is shown in order, whatever touches it: a beginning of its text
    that agrees with its count, is the whole once all that can be seen has appeared, and does not
    get shorter by more touches. Once complete it stays complete, and of any two presses one is for
    the story. -/
theorem shows_text_in_order (box : DialogueBox ℝ) (hparams : box.params.Patient)
    (speaker : Option String) (text : String) (touches more : List (Touch ℝ))
    (htouches : ∀ x ∈ touches ++ more, x.Forward) :
    let now := (box.show speaker (some text)).after touches
    let later := (box.show speaker (some text)).after (touches ++ more)
    ∃ line line' shown shown', now.line = some line ∧ later.line = some line' ∧
      line.Faithful text shown ∧ line'.Faithful text shown' ∧
      shown.toList <+: shown'.toList ∧
      (line.isFinished = true → line'.isFinished = true) ∧
      (now.press.1 = true ∨ now.press.2.press.1 = true) := by
  intro now later
  obtain ⟨hnow, hmore⟩ := List.forall_mem_append.1 htouches
  obtain ⟨t, ht, hshows⟩ := (shows_show speaker text hparams).after hnow
  obtain ⟨t', hle, hshows'⟩ := hshows.after hmore
  rw [← after_append] at hshows'
  obtain ⟨shown, hshown⟩ := RevealedLine.faithful_since speaker text hparams hshows.nonneg
  obtain ⟨shown', hshown'⟩ := RevealedLine.faithful_since speaker text hparams hshows'.nonneg
  exact ⟨_, _, shown, shown', hshows.line, hshows'.line, hshown, hshown',
    hshown.prefix_of_le hparams hshows.nonneg hle hshown', RevealedLine.isFinished_since_mono hle,
    hshows.press_press⟩

/-- A line of the typewriter at its usual speed, pressed on while it appears. -/
theorem shows_text_in_order_hi :
    let box : DialogueBox ℝ := { params := .standard }
    let touches : List (Touch ℝ) := [.time (1 / 100)]
    let now := (box.show (some "Ann") (some "Hi.\nYou?")).after touches
    let later := (box.show (some "Ann") (some "Hi.\nYou?")).after (touches ++ [.press])
    box.params.Patient ∧ (∀ x ∈ touches ++ [.press], x.Forward) ∧
      ∃ line line' shown shown', now.line = some line ∧ later.line = some line' ∧
        line.Faithful "Hi.\nYou?" shown ∧ line'.Faithful "Hi.\nYou?" shown' ∧
        shown.toList <+: shown'.toList ∧
        (line.isFinished = true → line'.isFinished = true) ∧
        (now.press.1 = true ∨ now.press.2.press.1 = true) := by
  intro box touches now later
  have htouches : ∀ x ∈ touches ++ [.press], x.Forward := by
    simp [touches, Touch.Forward]
  exact ⟨RevealParams.standard_patient, htouches,
    shows_text_in_order box RevealParams.standard_patient (some "Ann") "Hi.\nYou?" touches [.press]
      htouches⟩

end DialogueBox

end VisualNovel

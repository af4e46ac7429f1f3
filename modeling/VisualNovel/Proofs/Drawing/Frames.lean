import VisualNovel.Proofs.Drawing.Loading

/-!
The frames of a sheet, against its pixels. A frame is cut out where its row and its column are, or it
is a placeholder if they are not on the sheet. Rows are counted in numbers of 32 bits, so that one
that is far below the sheet comes round to the top again: only frames whose rows are that far apart
can have a pixel in common. Main statement: `frames_tile_sheet`.
-/

namespace VisualNovel

/-! ### A side of a sheet -/

/-- A number goes round some whole number of times. -/
theorem exists_goRound_eq (n : Int) : ∃ k, goRound n = n + 4294967296 * k := by
  obtain ⟨k, hk⟩ : (4294967296 : Int) ∣ n - goRound n := Int.dvd_self_sub_bmod
  exact ⟨-k, by omega⟩

theorem goRound_add_goRound (a b : Int) : goRound (a + goRound b) = goRound (a + b) :=
  Int.add_bmod_bmod

/-- What a stretch takes of a side: where that begins and how long it is. Nothing is taken if that is
    not positive. -/
def taken (side start length : Int) : Int × Int :=
  let first := max (goRound start) 0
  (first, min (goRound (start + length)) side - first)

section Side

variable {side start length : Int}

/-- A stretch that lies on the side is taken as it is. -/
theorem taken_of_within (hside : side ≤ 2147483647) (hstart : 0 ≤ start) (hlength : 0 ≤ length)
    (hstop : start + length ≤ side) : taken side start length = (start, length) := by
  unfold taken
  rw [goRound_of_fits (n := start) (by omega) (by omega),
    goRound_of_fits (n := start + length) (by omega) (by omega)]
  ext
  · dsimp only
    omega
  · dsimp only
    omega

/-- A point that is taken is one of the stretch, which may have gone round before. -/
theorem exists_of_taken {point : Int} (hlength : 0 ≤ length)
    (hlow : (taken side start length).1 ≤ point)
    (hhigh : point < (taken side start length).1 + (taken side start length).2) :
    ∃ i k, (0 ≤ i ∧ i < length) ∧ point = start + i + 4294967296 * k := by
  obtain ⟨k, hk⟩ := exists_goRound_eq start
  obtain ⟨k', hk'⟩ := exists_goRound_eq (start + length)
  have hstart := goRound_bounds start
  have hstop := goRound_bounds (start + length)
  unfold taken at hlow hhigh
  dsimp only at hlow hhigh
  exact ⟨point - goRound start, k, by omega, by omega⟩

/-- What begins on the side or behind it takes nothing if it is behind the side, or reaches into the
    negative numbers, and does not come round to the beginning of the side. -/
theorem taken_snd_nonpos_iff (hside : side ≤ 2147483647) (hlength : 0 < length ∧ length ≤ side) :
    (taken side start length).2 ≤ 0 ↔
      start % 4294967296 + length ≤ 4294967296 ∧
        (side ≤ start % 4294967296 ∨ 2147483648 ≤ start % 4294967296 + length) := by
  obtain ⟨k, hk⟩ := exists_goRound_eq start
  obtain ⟨k', hk'⟩ := exists_goRound_eq (start + length)
  have hstart := goRound_bounds start
  have hstop := goRound_bounds (start + length)
  unfold taken
  dsimp only
  omega

/-- Stretches of one length that begin a whole number of lengths apart have a point in common only
    if they are about a round apart. -/
theorem round_apart_of_taken {m n point : Int} (hlength : 0 < length) (hne : m ≠ n)
    (hlow : (taken side (m * length) length).1 ≤ point)
    (hhigh : point < (taken side (m * length) length).1 + (taken side (m * length) length).2)
    (hlow' : (taken side (n * length) length).1 ≤ point)
    (hhigh' : point < (taken side (n * length) length).1 + (taken side (n * length) length).2) :
    4294967296 - length < |m * length - n * length| := by
  obtain ⟨i, k, hi, hpoint⟩ := exists_of_taken hlength.le hlow hhigh
  obtain ⟨j, k', hj, hpoint'⟩ := exists_of_taken hlength.le hlow' hhigh'
  have hdistance : length ≤ |m * length - n * length| := by
    rw [← Int.sub_mul, abs_mul, abs_of_pos hlength]
    have hone : 1 ≤ |m - n| := Int.one_le_abs (by omega)
    exact le_mul_of_one_le_left hlength.le hone
  rcases abs_cases (m * length - n * length) with ⟨habs, -⟩ | ⟨habs, -⟩ <;> omega

end Side

/-! ### Frames on a sheet -/

namespace Rect

/-- A rectangle of some size that does not reach beyond a picture. -/
structure LiesOn (r : Rect) (p : Picture) : Prop where
  left : 0 ≤ r.x
  top : 0 ≤ r.y
  sized : 0 < r.width ∧ 0 < r.height
  right : r.x + r.width ≤ p.width
  bottom : r.y + r.height ≤ p.height

theorem LiesOn.holds_iff {r : Rect} {p : Picture} (h : r.LiesOn p) (hp : p.Sized) {x y : Int} :
    r.Holds (x, y) ↔ (r.x ≤ x ∧ x < r.x + r.width) ∧ r.y ≤ y ∧ y < r.y + r.height := by
  obtain ⟨hleft, htop, ⟨hwidth, hheight⟩, hright, hbottom⟩ := h
  have hpwidth := hp.width.2
  have hpheight := hp.height.2
  have hfits {n : Int} (hn : 0 ≤ n ∧ n ≤ 2147483647) : fits n := fits_iff.2 (by omega)
  have hr : r.right = r.x + r.width := goRound_of_fits (by omega) (by omega)
  have hb : r.bottom = r.y + r.height := goRound_of_fits (by omega) (by omega)
  rw [holds_iff_contains ⟨hfits (by omega), hfits (by omega), ⟨hwidth, hfits (by omega)⟩,
    hheight, hfits (by omega)⟩ (hfits (by omega)) (hfits (by omega))]
  simp only [contains, Bool.and_eq_true, decide_eq_true_eq, hr, hb, and_assoc]

/-- What a rectangle has in common with one in the upper left corner, side by side. -/
theorem clip_eq (x y width height : Int) {right bottom : Int}
    (hright : 0 ≤ right ∧ right ≤ 2147483647) (hbottom : 0 ≤ bottom ∧ bottom ≤ 2147483647) :
    (⟨goRound x, goRound y, goRound width, goRound height⟩ : Rect).clip ⟨0, 0, right, bottom⟩ =
      if 0 < (taken right x width).2 ∧ 0 < (taken bottom y height).2 then
        placeOf (taken bottom y height) (taken right x width)
      else ⟨goRound x, goRound y, 0, 0⟩ := by
  have hsum (a b : Int) : goRound (goRound a + goRound b) = goRound (a + b) := by
    rw [goRound_goRound_add, goRound_add_goRound]
  have hzero {n : Int} (hn : 0 ≤ n ∧ n ≤ 2147483647) : goRound (0 + n) = n := by
    rw [Int.zero_add, goRound_of_fits (by omega) hn.2]
  unfold clip Rect.right Rect.bottom taken placeOf
  dsimp only
  rw [hsum, hsum, hzero hright, hzero hbottom]
  by_cases h : 0 < min (goRound (x + width)) right - max (goRound x) 0 ∧
      0 < min (goRound (y + height)) bottom - max (goRound y) 0
  · rw [if_pos h, if_neg (by omega)]
  · rw [if_neg h, if_pos (by omega)]

end Rect

namespace Picture

/-- How many frames of a width a row of a sheet has. A row has at least one. -/
def columns (sheet : Picture) (width : Int) : Int := max 1 (sheet.width / width)

/-- Where the column of a frame begins, from the left edge of the sheet. -/
def frameLeft (sheet : Picture) (width index : Int) : Int := index % sheet.columns width * width

/-- Where the row of a frame begins, from the upper edge of the sheet. -/
def frameTop (sheet : Picture) (width height index : Int) : Int :=
  index / sheet.columns width * height

/-- The part of a sheet that a frame is cut out of; none if the frame has no place on the sheet. -/
def frameArea? (sheet : Picture) (width height index : Int) : Option Rect :=
  match Imaging.cell sheet.width sheet.height index width height with
  | .ok area => if area.width = 0 ∨ area.height = 0 then none else some area
  | .error _ => none

/-- The size and the row of a frame are numbers that a rectangle can be given. -/
structure Countable (sheet : Picture) (width height index : Int) : Prop where
  top : sheet.frameTop width height index ≤ 9223372036854775807
  width : width ≤ 9223372036854775807
  height : height ≤ 9223372036854775807

variable {sheet : Picture} {width height index : Int}

theorem columns_pos (sheet : Picture) (width : Int) : 0 < sheet.columns width := by
  unfold columns
  omega

/-- The first column begins at the edge. If there are others, each ends on the sheet. -/
theorem columns_spec (sheet : Picture) (hwidth : 1 ≤ width) :
    sheet.columns width = 1 ∨ sheet.columns width * width ≤ sheet.width := by
  have hle := Int.ediv_mul_le sheet.width (b := width) (by omega)
  unfold columns
  rcases Int.le_total (sheet.width / width) 1 with h | h
  · exact .inl (Int.max_eq_left h)
  · rw [Int.max_eq_right h]
    exact .inr hle

theorem frameLeft_bounds (hsheet : sheet.Sized) (hwidth : 1 ≤ width) (index : Int) :
    0 ≤ sheet.frameLeft width index ∧ sheet.frameLeft width index ≤ sheet.width := by
  have hsize := hsheet.width.1
  have hcolumns := sheet.columns_pos width
  have hlow := Int.emod_nonneg index hcolumns.ne'
  have hhigh := Int.emod_lt_of_pos index hcolumns
  unfold frameLeft
  rcases sheet.columns_spec hwidth with hone | hfit
  · rw [hone, Int.emod_one, Int.zero_mul]
    omega
  · exact ⟨Int.mul_nonneg hlow (by omega),
      (Int.mul_le_mul_of_nonneg_right hhigh.le (by omega)).trans hfit⟩

theorem frameTop_nonneg (sheet : Picture) (width : Int) (hheight : 1 ≤ height)
    (hindex : 0 ≤ index) :
    0 ≤ sheet.frameTop width height index :=
  Int.mul_nonneg (Int.ediv_nonneg hindex (sheet.columns_pos width).le) (by omega)

/-- A frame that cannot be counted has no rectangle. -/
theorem cell_of_not_countable (hwidth : 1 ≤ width)
    (h : ¬ sheet.Countable width height index) :
    Imaging.cell sheet.width sheet.height index width height = .error .noRect := by
  have hrefused : ¬ [sheet.frameLeft width index, sheet.frameTop width height index, width,
      height].all Rect.isAccepted := by
    intro hall
    simp only [List.all_cons, List.all_nil, Bool.and_true, Bool.and_eq_true,
      Rect.isAccepted_iff] at hall
    exact h ⟨hall.2.1.2, hall.2.2.1.2, hall.2.2.2.2⟩
  have hmake : Rect.make (sheet.frameLeft width index) (sheet.frameTop width height index) width
      height = .error .noRect := by
    unfold Rect.make Rect.ofNumbers?
    rw [if_neg hrefused]
  unfold Imaging.cell
  rw [Int.fdiv_eq_ediv_of_nonneg _ (by omega)]
  dsimp only [frameLeft, frameTop, columns] at hmake ⊢
  rw [hmake]
  rfl

/-- The part of a sheet that a frame takes, side by side. -/
theorem cell_of_countable (hsheet : sheet.Sized) (hwidth : 1 ≤ width) (hheight : 1 ≤ height)
    (hindex : 0 ≤ index) (h : sheet.Countable width height index) :
    Imaging.cell sheet.width sheet.height index width height = .ok
      (let column := taken sheet.width (sheet.frameLeft width index) width
       let row := taken sheet.height (sheet.frameTop width height index) height
       if 0 < column.2 ∧ 0 < row.2 then placeOf row column
       else ⟨goRound (sheet.frameLeft width index), goRound (sheet.frameTop width height index),
        0, 0⟩) := by
  have hleft := frameLeft_bounds hsheet hwidth index
  have htop := sheet.frameTop_nonneg width hheight hindex
  have hsize := hsheet.width.2
  have haccepted : ∀ n ∈ [sheet.frameLeft width index, sheet.frameTop width height index, width,
      height], Rect.isAccepted n := by
    simp only [List.mem_cons, List.not_mem_nil, or_false, forall_eq_or_imp, forall_eq,
      Rect.isAccepted_iff]
    have := h.top
    have := h.width
    have := h.height
    omega
  have hmake := Rect.make_of_accepted haccepted
  unfold Imaging.cell
  rw [Int.fdiv_eq_ediv_of_nonneg _ (by omega)]
  dsimp only [frameLeft, frameTop, columns] at hmake ⊢
  rw [hmake, Rect.make_of_length hsheet.width.nonneg hsheet.height.nonneg]
  exact congrArg Except.ok
    (Rect.clip_eq _ _ width height hsheet.width.nonneg hsheet.height.nonneg)

/-- A frame that can be counted is cut out where its column and its row take some of the sheet. -/
theorem frameArea?_eq_some_iff (hsheet : sheet.Sized) (hwidth : 1 ≤ width) (hheight : 1 ≤ height)
    (hindex : 0 ≤ index) {area : Rect} :
    sheet.frameArea? width height index = some area ↔ sheet.Countable width height index ∧
      0 < (taken sheet.width (sheet.frameLeft width index) width).2 ∧
      0 < (taken sheet.height (sheet.frameTop width height index) height).2 ∧
      placeOf (taken sheet.height (sheet.frameTop width height index) height)
        (taken sheet.width (sheet.frameLeft width index) width) = area := by
  unfold frameArea?
  by_cases h : sheet.Countable width height index
  · rw [cell_of_countable hsheet hwidth hheight hindex h]
    generalize taken sheet.width (sheet.frameLeft width index) width = column
    generalize taken sheet.height (sheet.frameTop width height index) height = row
    dsimp only
    by_cases hon : 0 < column.2 ∧ 0 < row.2
    · rw [if_pos hon, if_neg (by dsimp only [placeOf]; omega)]
      simp [h, hon]
    · rw [if_neg hon, if_pos (.inl rfl)]
      simp only [reduceCtorEq, false_iff]
      rintro ⟨-, hcolumn, hrow, -⟩
      exact hon ⟨hcolumn, hrow⟩
  · rw [cell_of_not_countable hwidth h]
    simp [h]

/-- What is taken of a side lies on it. -/
theorem liesOn_of_frameArea? (hsheet : sheet.Sized) (hwidth : 1 ≤ width) (hheight : 1 ≤ height)
    (hindex : 0 ≤ index) {area : Rect} (h : sheet.frameArea? width height index = some area) :
    area.LiesOn sheet := by
  obtain ⟨-, hcolumn, hrow, rfl⟩ := (frameArea?_eq_some_iff hsheet hwidth hheight hindex).1 h
  unfold taken at *
  dsimp only at hcolumn hrow
  constructor <;> dsimp only [placeOf] <;> omega

/-! ### Two frames -/

/-- A column of frames that is not the only one takes what is its own. -/
theorem taken_frameLeft (hsheet : sheet.Sized) (hwidth : 1 ≤ width) (index : Int)
    (hfit : sheet.columns width * width ≤ sheet.width) :
    taken sheet.width (sheet.frameLeft width index) width =
      (sheet.frameLeft width index, width) := by
  have hcolumn := Int.emod_lt_of_pos index (sheet.columns_pos width)
  have hstop : sheet.frameLeft width index + width ≤ sheet.width := by
    calc sheet.frameLeft width index + width
        = (index % sheet.columns width + 1) * width := by
          rw [Int.add_mul, Int.one_mul]
          rfl
      _ ≤ sheet.columns width * width := Int.mul_le_mul_of_nonneg_right (by omega) (by omega)
      _ ≤ sheet.width := hfit
  exact taken_of_within hsheet.width.2 (frameLeft_bounds hsheet hwidth index).1 (by omega) hstop

/-- A number from the multiple of another one on, and before the next multiple. -/
theorem ediv_eq_of_between {n m width : Int} (hwidth : 0 < width) (hlow : m * width ≤ n)
    (hhigh : n < m * width + width) : n / width = m := by
  refine Int.le_antisymm ?_ (Int.le_ediv_of_mul_le hwidth hlow)
  refine Int.lt_add_one_iff.1 (Int.ediv_lt_of_lt_mul hwidth ?_)
  rwa [Int.add_mul, Int.one_mul]

/-- Different frames with a pixel in common are in one column, and about a round apart. -/
theorem round_apart_of_holds (hsheet : sheet.Sized) (hwidth : 1 ≤ width) (hheight : 1 ≤ height)
    {i j : Int} (hi : 0 ≤ i) (hj : 0 ≤ j) (hne : i ≠ j) {a b : Rect}
    (ha : sheet.frameArea? width height i = some a) (hb : sheet.frameArea? width height j = some b)
    {pixel : Int × Int} (hpixel : a.Holds pixel) (hpixel' : b.Holds pixel) :
    sheet.frameLeft width i = sheet.frameLeft width j ∧
      4294967296 - height < |sheet.frameTop width height i - sheet.frameTop width height j| := by
  obtain ⟨x, y⟩ := pixel
  rw [(liesOn_of_frameArea? hsheet hwidth hheight hi ha).holds_iff hsheet] at hpixel
  rw [(liesOn_of_frameArea? hsheet hwidth hheight hj hb).holds_iff hsheet] at hpixel'
  obtain ⟨-, -, -, rfl⟩ := (frameArea?_eq_some_iff hsheet hwidth hheight hi).1 ha
  obtain ⟨-, -, -, rfl⟩ := (frameArea?_eq_some_iff hsheet hwidth hheight hj).1 hb
  obtain ⟨⟨hleft, hright⟩, htop, hbottom⟩ := hpixel
  obtain ⟨⟨hleft', hright'⟩, htop', hbottom'⟩ := hpixel'
  have hcolumn : i % sheet.columns width = j % sheet.columns width := by
    rcases sheet.columns_spec hwidth with hone | hfit
    · rw [hone, Int.emod_one, Int.emod_one]
    · dsimp only [placeOf] at hleft hright hleft' hright'
      rw [taken_frameLeft hsheet hwidth _ hfit] at hleft hright hleft' hright'
      rw [← ediv_eq_of_between (by omega) hleft hright, ediv_eq_of_between (by omega) hleft' hright']
  have hrow : i / sheet.columns width ≠ j / sheet.columns width := by
    intro hrow
    apply hne
    rw [← Int.emod_add_mul_ediv i (sheet.columns width), hcolumn, hrow, Int.emod_add_mul_ediv]
  refine ⟨?_, round_apart_of_taken (by omega) hrow htop hbottom htop' hbottom'⟩
  unfold frameLeft
  rw [hcolumn]

/-- Different frames have no pixel in common, unless they are in one column and about a round
    apart. -/
theorem apart_or_round_apart (hsheet : sheet.Sized) (hwidth : 1 ≤ width) (hheight : 1 ≤ height)
    {i j : Int} (hi : 0 ≤ i) (hj : 0 ≤ j) (hne : i ≠ j) {a b : Rect}
    (ha : sheet.frameArea? width height i = some a)
    (hb : sheet.frameArea? width height j = some b) :
    a.Apart b ∨ sheet.frameLeft width i = sheet.frameLeft width j ∧
      4294967296 - height < |sheet.frameTop width height i - sheet.frameTop width height j| := by
  by_cases hapart : a.Apart b
  · exact .inl hapart
  · obtain ⟨pixel, hboth⟩ := not_forall.1 hapart
    obtain ⟨hpixel, hpixel'⟩ := not_not.1 hboth
    exact .inr (round_apart_of_holds hsheet hwidth hheight hi hj hne ha hb hpixel hpixel')

/-! ### A sheet without remainder -/

/-- A sheet whose sides are multiples of those of a frame. -/
structure Ruled (sheet : Picture) (width height : Int) : Prop where
  sized : sheet.Sized
  frame : 1 ≤ width ∧ 1 ≤ height
  width : width ∣ sheet.width
  height : height ∣ sheet.height

namespace Ruled

variable (h : sheet.Ruled width height)
include h

theorem columns_mul : sheet.columns width * width = sheet.width := by
  have hmul := Int.ediv_mul_cancel h.width
  have hsize := h.sized.width.1
  have hcount : 1 ≤ sheet.width / width := by
    by_contra hnot
    have hle := Int.mul_nonpos_of_nonpos_of_nonneg (a := sheet.width / width) (b := width)
      (by omega) (by have := h.frame.1; omega)
    omega
  unfold columns
  rw [Int.max_eq_right hcount, hmul]

/-- The frames before the last one have all of their place on the sheet. -/
theorem frameArea?_eq_some (hindex : 0 ≤ index)
    (hlast : index < sheet.columns width * (sheet.height / height)) :
    sheet.frameArea? width height index =
      some ⟨sheet.frameLeft width index, sheet.frameTop width height index, width, height⟩ := by
  obtain ⟨hwidth, hheight⟩ := h.frame
  have hfit := h.columns_mul
  have hrows := Int.ediv_mul_cancel h.height
  have hcolumns := sheet.columns_pos width
  have hsize := h.sized.height
  have hrow : index / sheet.columns width < sheet.height / height := by
    refine Int.ediv_lt_of_lt_mul hcolumns ?_
    rwa [Int.mul_comm]
  have htop := sheet.frameTop_nonneg width hheight hindex
  have hbottom : sheet.frameTop width height index + height ≤ sheet.height := by
    calc sheet.frameTop width height index + height
        = (index / sheet.columns width + 1) * height := by
          rw [Int.add_mul, Int.one_mul]
          rfl
      _ ≤ sheet.height / height * height :=
          Int.mul_le_mul_of_nonneg_right (by omega) (by omega)
      _ = sheet.height := hrows
  have hleft := frameLeft_bounds h.sized hwidth index
  have hwide := Int.le_of_dvd (by have := h.sized.width.1; omega) h.width
  have hsize' := h.sized.width
  refine (frameArea?_eq_some_iff h.sized hwidth hheight hindex).2 ⟨⟨?_, ?_, ?_⟩, ?_⟩
  · have := hsize.2
    omega
  · have := hsize'.2
    omega
  · have := hsize.2
    omega
  rw [taken_frameLeft h.sized hwidth index hfit.le,
    taken_of_within hsize.2 htop (by omega) hbottom]
  exact ⟨by dsimp only; omega, by dsimp only; omega, rfl⟩

/-- A pixel is in the frame of its row and its column. -/
theorem holds_frame_iff (hindex : 0 ≤ index)
    (hlast : index < sheet.columns width * (sheet.height / height)) (x y : Int) :
    (∃ area, sheet.frameArea? width height index = some area ∧ area.Holds (x, y)) ↔
      index / sheet.columns width = y / height ∧ index % sheet.columns width = x / width := by
  obtain ⟨hwidth, hheight⟩ := h.frame
  have harea := h.frameArea?_eq_some hindex hlast
  have hlies := liesOn_of_frameArea? h.sized hwidth hheight hindex harea
  rw [harea]
  simp only [Option.some.injEq, exists_eq_left', hlies.holds_iff h.sized]
  unfold frameLeft frameTop
  constructor
  · rintro ⟨⟨hleft, hright⟩, htop, hbottom⟩
    exact ⟨(ediv_eq_of_between (by omega) htop hbottom).symm,
      (ediv_eq_of_between (by omega) hleft hright).symm⟩
  · rintro ⟨hrow, hcolumn⟩
    have hx := Int.emod_add_mul_ediv x width
    have hy := Int.emod_add_mul_ediv y height
    have hxlow := Int.emod_nonneg x (b := width) (by omega)
    have hylow := Int.emod_nonneg y (b := height) (by omega)
    have hxhigh := Int.emod_lt_of_pos x (b := width) (by omega)
    have hyhigh := Int.emod_lt_of_pos y (b := height) (by omega)
    rw [hrow, hcolumn, Int.mul_comm (x / width), Int.mul_comm (y / height)]
    omega

/-- Each pixel of the sheet is in one frame. -/
theorem existsUnique_frame {x y : Int} (hx : 0 ≤ x ∧ x < sheet.width)
    (hy : 0 ≤ y ∧ y < sheet.height) :
    ∃! index, (0 ≤ index ∧ index < sheet.columns width * (sheet.height / height)) ∧
      ∃ area, sheet.frameArea? width height index = some area ∧ area.Holds (x, y) := by
  obtain ⟨hwidth, hheight⟩ := h.frame
  have hcolumns := sheet.columns_pos width
  have hcolumn : x / width < sheet.columns width :=
    Int.ediv_lt_of_lt_mul (by omega) (by rw [h.columns_mul]; exact hx.2)
  have hrow : y / height < sheet.height / height :=
    Int.ediv_lt_of_lt_mul (by omega) (by rw [Int.ediv_mul_cancel h.height]; exact hy.2)
  have hcolumn' : 0 ≤ x / width := Int.ediv_nonneg hx.1 (by omega)
  have hrow' : 0 ≤ y / height := Int.ediv_nonneg hy.1 (by omega)
  -- the row and the column of the pixel make the index
  refine ⟨x / width + sheet.columns width * (y / height), ?_, ?_⟩
  · have hlow : 0 ≤ x / width + sheet.columns width * (y / height) :=
      Int.add_nonneg hcolumn' (Int.mul_nonneg hcolumns.le hrow')
    have hhigh : x / width + sheet.columns width * (y / height) <
        sheet.columns width * (sheet.height / height) := by
      calc x / width + sheet.columns width * (y / height)
          < sheet.columns width * (y / height + 1) := by
            rw [Int.mul_add, Int.mul_one]
            omega
        _ ≤ sheet.columns width * (sheet.height / height) :=
            Int.mul_le_mul_of_nonneg_left (by omega) hcolumns.le
    exact ⟨⟨hlow, hhigh⟩, (h.holds_frame_iff hlow hhigh x y).2
      ((Int.ediv_emod_unique hcolumns).2 ⟨rfl, hcolumn', hcolumn⟩)⟩
  · rintro index ⟨⟨hlow, hhigh⟩, hpixel⟩
    obtain ⟨hr, hc⟩ := (h.holds_frame_iff hlow hhigh x y).1 hpixel
    rw [← hr, ← hc, Int.emod_add_mul_ediv]

/-- The frames behind the last one have no place on the sheet, unless their row comes round to it. -/
theorem frameArea?_eq_none_iff (hindex : 0 ≤ index) (hcount : sheet.Countable width height index) :
    sheet.frameArea? width height index = none ↔
      sheet.frameTop width height index % 4294967296 + height ≤ 4294967296 ∧
        (sheet.height ≤ sheet.frameTop width height index % 4294967296 ∨
          2147483648 ≤ sheet.frameTop width height index % 4294967296 + height) := by
  obtain ⟨hwidth, hheight⟩ := h.frame
  have hhigh := Int.le_of_dvd (by have := h.sized.height.1; omega) h.height
  rw [← taken_snd_nonpos_iff h.sized.height.2 ⟨by omega, hhigh⟩, Option.eq_none_iff_forall_ne_some]
  have hcolumn : 0 < (taken sheet.width (sheet.frameLeft width index) width).2 := by
    rw [taken_frameLeft h.sized hwidth index h.columns_mul.le]
    dsimp only
    omega
  constructor
  · intro hnone
    by_contra hrow
    exact hnone _ ((frameArea?_eq_some_iff h.sized hwidth hheight hindex).2
      ⟨hcount, hcolumn, by omega, rfl⟩)
  · intro hrow area harea
    have hsome := (frameArea?_eq_some_iff h.sized hwidth hheight hindex).1 harea
    omega

/-- The row of a frame behind the last one is below the sheet. -/
theorem height_le_frameTop (hindex : sheet.columns width * (sheet.height / height) ≤ index) :
    sheet.height ≤ sheet.frameTop width height index := by
  have hrow : sheet.height / height ≤ index / sheet.columns width := by
    refine Int.le_ediv_of_mul_le (sheet.columns_pos width) ?_
    rwa [Int.mul_comm]
  calc sheet.height = sheet.height / height * height := (Int.ediv_mul_cancel h.height).symm
    _ ≤ sheet.frameTop width height index :=
        Int.mul_le_mul_of_nonneg_right hrow (by have := h.frame.2; omega)

theorem count_nonneg : 0 ≤ sheet.columns width * (sheet.height / height) :=
  Int.mul_nonneg (sheet.columns_pos width).le
    (Int.ediv_nonneg h.sized.height.nonneg.1 (by have := h.frame.2; omega))

/-- The frames behind the last one have no place on the sheet, as long as their row is on the way
    of the first round. -/
theorem frameArea?_eq_none (hindex : sheet.columns width * (sheet.height / height) ≤ index)
    (hnear : sheet.frameTop width height index + height ≤ 4294967296) :
    sheet.frameArea? width height index = none := by
  have hfirst : 0 ≤ index := h.count_nonneg.trans hindex
  have hbelow := h.height_le_frameTop hindex
  have htop := sheet.frameTop_nonneg width h.frame.2 hfirst
  have hhigh := h.frame.2
  have hcount : sheet.Countable width height index := by
    have hwide := Int.le_of_dvd (by have := h.sized.width.1; omega) h.width
    have := h.sized.width.2
    exact ⟨by omega, by omega, by omega⟩
  refine (h.frameArea?_eq_none_iff hfirst hcount).2 ?_
  rw [Int.emod_eq_of_lt htop (by omega)]
  exact ⟨hnear, .inl hbelow⟩

end Ruled

/-- A placeholder has the size that was asked for. -/
theorem exists_placeholder_of_accepted {width height : Int}
    (hwidth : 0 ≤ width ∧ width ≤ 9223372036854775807)
    (hheight : 0 ≤ height ∧ height ≤ 9223372036854775807) :
    ∃ p, placeholder width height = .ok p ∧ p.width = width ∧ p.height = height := by
  have hblank : blank width height = .ok { origin := .blank, width, height } :=
    if_neg (by omega)
  have harea : Rect.make 0 0 width height =
      .ok ⟨goRound 0, goRound 0, goRound width, goRound height⟩ := by
    refine Rect.make_of_accepted ?_
    simp only [List.mem_cons, List.not_mem_nil, or_false, forall_eq_or_imp, forall_eq,
      Rect.isAccepted_iff]
    omega
  unfold placeholder
  rw [hblank]
  unfold area
  simp only [bind, Except.bind, edit, harea]
  exact ⟨_, rfl, rfl, rfl⟩

/-- A frame is cut out of its part of the sheet, or it is a placeholder. -/
theorem finish_frame_of_countable (id : String) (hsheet : sheet.Sized) (hwidth : 1 ≤ width)
    (hheight : 1 ≤ height) (hindex : 0 ≤ index) (h : sheet.Countable width height index) :
    ImageRequest.finish (.frame id index width height) sheet =
      match sheet.frameArea? width height index with
      | some area => .ok (sheet.cut area)
      | none => placeholder width height := by
  unfold ImageRequest.finish frameArea?
  dsimp only
  obtain ⟨area, harea⟩ : ∃ area,
      Imaging.cell sheet.width sheet.height index width height = .ok area :=
    ⟨_, cell_of_countable hsheet hwidth hheight hindex h⟩
  rw [if_neg (by omega), harea]
  dsimp only [bind, Except.bind, pure, Except.pure]
  by_cases hnone : area.width = 0 ∨ area.height = 0
  · rw [if_pos hnone, if_pos hnone]
  · rw [if_neg hnone, if_neg hnone]

theorem finish_frame_of_not_countable (id : String) (hwidth : 1 ≤ width)
    (h : ¬ sheet.Countable width height index) :
    ImageRequest.finish (.frame id index width height) sheet = .error .noRect := by
  unfold ImageRequest.finish
  dsimp only
  rw [if_neg (by omega), cell_of_not_countable hwidth h]
  rfl

end Picture

namespace ImageStore

/-- A frame is what its request asks for of the sheet. -/
theorem picture_frame {store : ImageStore} {id : String} {width height : Int} {sheet : Picture}
    (h : store.picture (.image id none (width, height)) = .ok sheet) (index : Int) :
    store.picture (.frame id index width height) =
      ImageRequest.finish (.frame id index width height) sheet := by
  rw [(store.answer_spec _).1] at h ⊢
  have hsheet : (store.find? ⟨id, none⟩).elim
      (store.developed (.image id none (width, height))) .ok = .ok sheet := by
    rw [← h]
    exact (bind_pure _).symm
  show (store.find? ⟨id, none⟩).elim (store.developed (.image id none (width, height))) .ok >>= _ = _
  rw [hsheet]
  rfl

section Frame

variable {store : ImageStore} {id : String} {width height index : Int} {sheet : Picture}
  (hload : store.picture (.image id none (width, height)) = .ok sheet)
include hload

/-- A frame that can be counted is a part of the sheet or a placeholder of its size. -/
theorem picture_frame_of_countable (hsheet : sheet.Sized) (hwidth : 1 ≤ width)
    (hheight : 1 ≤ height) (hindex : 0 ≤ index) (h : sheet.Countable width height index) :
    (∃ area, sheet.frameArea? width height index = some area ∧ area.LiesOn sheet ∧
      store.picture (.frame id index width height) = .ok (sheet.cut area)) ∨
    (sheet.frameArea? width height index = none ∧ ∃ p, Picture.placeholder width height = .ok p ∧
      p.width = width ∧ p.height = height ∧
      store.picture (.frame id index width height) = .ok p) := by
  rw [picture_frame hload, Picture.finish_frame_of_countable id hsheet hwidth hheight hindex h]
  cases harea : sheet.frameArea? width height index with
  | some area =>
    exact .inl ⟨area, rfl, Picture.liesOn_of_frameArea? hsheet hwidth hheight hindex harea, rfl⟩
  | none =>
    obtain ⟨p, hp, hsize⟩ := Picture.exists_placeholder_of_accepted
      ⟨by omega, h.width⟩ ⟨by omega, h.height⟩
    exact .inr ⟨rfl, p, hp, hsize.1, hsize.2, hp⟩

theorem picture_frame_of_not_countable (hwidth : 1 ≤ width)
    (h : ¬ sheet.Countable width height index) :
    sheet.frameArea? width height index = none ∧
      store.picture (.frame id index width height) = .error .noRect := by
  rw [picture_frame hload, Picture.finish_frame_of_not_countable id hwidth h]
  unfold Picture.frameArea?
  rw [Picture.cell_of_not_countable hwidth h]
  exact ⟨rfl, rfl⟩

end Frame

/-- The frames of a sheet of any size, for a frame of any size. A frame is cut out of a part of the
    sheet, or it is a placeholder of the size of a frame; there is none only if its numbers have more
    than 64 bits. Two frames have no pixel in common, unless they are in one column and their rows
    are about a round of 32 bits apart. If the sheet is ruled in frames without a remainder, the
    frames before the last one have the size of a frame and share out all pixels of the sheet, and
    the frames behind it are placeholders, as long as their rows do not come round to the sheet. -/
theorem frames_tile_sheet (store : ImageStore) (id : String) (width height : Int)
    (sheet : Picture) (hload : store.picture (.image id none (width, height)) = .ok sheet)
    (hsheet : sheet.Sized) (hwidth : 1 ≤ width) (hheight : 1 ≤ height) :
    let area? := sheet.frameArea? width height
    let left := sheet.frameLeft width
    let top := sheet.frameTop width height
    let count := sheet.columns width * (sheet.height / height)
    (∀ index, 0 ≤ index → sheet.Countable width height index →
      (∃ area, area? index = some area ∧ area.LiesOn sheet ∧
        store.picture (.frame id index width height) = .ok (sheet.cut area)) ∨
      (area? index = none ∧ ∃ p, Picture.placeholder width height = .ok p ∧
        p.width = width ∧ p.height = height ∧
        store.picture (.frame id index width height) = .ok p)) ∧
    (∀ index, ¬ sheet.Countable width height index →
      area? index = none ∧ store.picture (.frame id index width height) = .error .noRect) ∧
    (∀ i j, 0 ≤ i → 0 ≤ j → i ≠ j → ∀ a b, area? i = some a → area? j = some b →
      a.Apart b ∨ left i = left j ∧ 4294967296 - height < |top i - top j|) ∧
    (width ∣ sheet.width → height ∣ sheet.height →
      (∀ index, 0 ≤ index → index < count →
        area? index = some ⟨left index, top index, width, height⟩) ∧
      (∀ x y, 0 ≤ x ∧ x < sheet.width → 0 ≤ y ∧ y < sheet.height →
        ∃! index, (0 ≤ index ∧ index < count) ∧
          ∃ area, area? index = some area ∧ area.Holds (x, y)) ∧
      (∀ index, count ≤ index → top index + height ≤ 4294967296 → area? index = none) ∧
      ∀ index, count ≤ index → sheet.Countable width height index →
        (area? index = none ↔ top index % 4294967296 + height ≤ 4294967296 ∧
          (sheet.height ≤ top index % 4294967296 ∨
            2147483648 ≤ top index % 4294967296 + height))) := by
  intro area? left top count
  refine ⟨fun index hindex => picture_frame_of_countable hload hsheet hwidth hheight hindex,
    fun index => picture_frame_of_not_countable hload hwidth,
    fun i j hi hj hne a b => Picture.apart_or_round_apart hsheet hwidth hheight hi hj hne,
    fun hcolumns hrows => ?_⟩
  have hruled : sheet.Ruled width height := ⟨hsheet, ⟨hwidth, hheight⟩, hcolumns, hrows⟩
  exact ⟨fun index => hruled.frameArea?_eq_some, fun x y => hruled.existsUnique_frame,
    fun index => hruled.frameArea?_eq_none,
    fun index hlast => hruled.frameArea?_eq_none_iff (hruled.count_nonneg.trans hlast)⟩

/-- A sheet of two by two frames. The last frame is in its lower right corner, and there is none
    behind it, but the frame whose row is 2 ^ 32 pixels down is the first one again. -/
theorem frames_tile_sheet_comes_round :
    let store : ImageStore := { files := [("assets/grid.png", (4, 4))] }
    let sheet : Picture := { origin := .file "assets/grid.png", width := 4, height := 4 }
    store.picture (.frame "grid" 3 2 2) = .ok (sheet.cut ⟨2, 2, 2, 2⟩) ∧
      sheet.frameArea? 2 2 4 = none ∧
      sheet.frameArea? 2 2 4294967296 ≠ none ∧
      sheet.frameArea? 2 2 4294967296 = sheet.frameArea? 2 2 0 := by
  intro store sheet
  have hload : store.picture (.image "grid" none (2, 2)) = .ok sheet := by decide +kernel
  obtain ⟨hcut, -, -, hruled⟩ := frames_tile_sheet store "grid" 2 2 sheet hload
    ⟨⟨by decide, by decide⟩, by decide, by decide⟩ (by decide) (by decide)
  obtain ⟨hbefore, -, hbehind, hround⟩ := hruled (by decide) (by decide)
  have hlast : sheet.frameArea? 2 2 3 = some ⟨2, 2, 2, 2⟩ :=
    (hbefore 3 (by decide) (by decide)).trans (by decide +kernel)
  refine ⟨?_, hbehind 4 (by decide) (by decide), fun hnone => ?_, by decide +kernel⟩
  · rcases hcut 3 (by decide) ⟨by decide, by decide, by decide⟩ with ⟨area, harea, -, hp⟩ | ⟨hnone, -⟩
    · rw [hlast] at harea
      cases harea
      exact hp
    · rw [hlast] at hnone
      cases hnone
  · have hnot := (hround 4294967296 (by decide) ⟨by decide, by decide, by decide⟩).1 hnone
    revert hnot
    decide

end ImageStore

end VisualNovel

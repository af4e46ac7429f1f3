import VisualNovel.Proofs.Drawing.Loading
import VisualNovel.Proofs.Number.Bounded

/-!
When strokes can be made on an easel. Lengths that are computed with doubles come out as lengths
again, as long as what they are computed from is in bounds; then whatever is not of a negative size
can be drawn.
-/

namespace VisualNovel

open Act Number

/-! ### Pictures -/

namespace Picture

variable {p : Picture}

theorem exists_scale (p : Picture) {width height : Int} (hwidth : 0 ≤ width) (hheight : 0 ≤ height) :
    ∃ q, p.scale width height = .ok q ∧ q.width = width ∧ q.height = height :=
  ⟨_, if_neg (by omega), rfl, rfl⟩

/-- A picture takes any opacity, and keeps its size. -/
theorem exists_atOpacity (p : Picture) (alpha : Float) :
    ∃ q, p.atOpacity alpha = .ok q ∧ q.width = p.width ∧ q.height = p.height := by
  unfold atOpacity
  split
  · exact ⟨p, rfl, rfl, rfl⟩
  next hsolid =>
  have hone : Scalar.lessEq Scalar.one alpha = false := decide_eq_false hsolid
  have hpart : Within 0 1 (if alpha > 0 then alpha else 0) := by
    split
    · next hpos => exact within_zero_one (decide_eq_true hpos) hone
    · exact within_zero.mono le_rfl zero_le_one
  have hfull : Within 0 255 (255 : Float) := by
    have h : (255 : Float).toModel.unpack = .finite .positive (255 * 2 ^ 45) (-45) (by decide) := rfl
    refine (within_of_unpack h ⟨by decide, by decide⟩ (by decide)).mono (by positivity) ?_
    norm_num
  have hdouble : IsExact 255 := by simpa using isExact_int (n := 255) (by decide)
  have hproduct := hfull.mul_fraction hpart isExact_zero hdouble le_rfl (by norm_num)
  obtain ⟨n, hn⟩ := exists_truncate hproduct.finite
  dsimp only
  rw [hn]
  exact ⟨_, rfl, rfl, rfl⟩

end Picture

/-! ### Lengths as doubles -/

/-- A length, or none at all, is a double below two to the power of thirty-one. -/
theorem within_length {n : Int} (h : 0 ≤ n ∧ n ≤ 2147483647) : Within 0 (2 ^ 31) (ofInt n) := by
  have hlow : (0 : ℚ) ≤ n := by exact_mod_cast h.1
  have hhigh : (n : ℚ) ≤ 2147483647 := by exact_mod_cast h.2
  exact (within_ofInt (by omega)).mono hlow (hhigh.trans (by norm_num))

theorem exists_truncate_nonneg {x : Float} {k : Nat} (h : Within 0 (2 ^ k) x) :
    ∃ n, truncate x = .ok n ∧ 0 ≤ n := by
  have hbounds : Within (0 : Int) ((2 ^ k : Nat) : Int) x := by
    refine h.mono (by simp) ?_
    push_cast
    exact le_rfl
  obtain ⟨n, hn, hlow, -⟩ := hbounds.truncate
  exact ⟨n, hn, hlow⟩

/-- A part of a length is a length, or none at all. -/
theorem exists_truncate_part {n : Int} (hn : 0 ≤ n ∧ n ≤ 2147483647) {x : Float}
    (hx : Within 0 1 x) : ∃ m, truncate (ofInt n * x) = .ok m ∧ 0 ≤ m ∧ m ≤ n := by
  have hdouble : IsExact n := isExact_int (by omega)
  have hpos : (0 : ℚ) ≤ n := by exact_mod_cast hn.1
  have hlength : Within 0 n (ofInt n) := (within_ofInt (by omega)).mono hpos le_rfl
  have hpart := hlength.mul_fraction hx isExact_zero hdouble le_rfl hpos
  have hbounds : Within (0 : Int) n (ofInt n * x) := hpart.mono (by simp) le_rfl
  exact hbounds.truncate

/-! ### The easel -/

/-- A surface of some size. -/
structure Easel.Sized (e : Easel) : Prop where
  width : IsLength e.width
  height : IsLength e.height

/-- An easel with a surface of the same size as another one's and with images from the same
    directory, which are sound. -/
structure Easel.Like (o e : Easel) : Prop where
  width : e.width = o.width
  height : e.height = o.height
  root : e.images.root = o.images.root
  images : e.images.Sound

namespace Draw

variable {α : Type} {o e : Easel} {P : Prop} {Q : α → Easel → Prop}

theorem stroke_ends (he : o.Like e) (s : Stroke) : Ends (stroke s) e fun _ => o.Like :=
  Ends.change ⟨he.width, he.height, he.root, he.images⟩

theorem blit_ends (he : o.Like e) (p : Picture) (x y : Int) : Ends (blit p x y) e fun _ => o.Like :=
  stroke_ends he _

theorem area_ends (ho : o.Sized) (he : o.Like e) :
    Ends area e fun r e' => r = ⟨0, 0, o.width, o.height⟩ ∧ e' = e := by
  refine Ends.view_bind ?_
  dsimp only
  rw [he.width, he.height, Rect.make_of_length ho.width.nonneg ho.height.nonneg]
  exact Ends.pure ⟨rfl, rfl⟩

theorem pixels_eq {x : Float} {n : Int} (h : truncate x = .ok n) : pixels x = pure n := by
  unfold pixels
  rw [h]

/-- What goes on with a number of pixels goes on if there is one. -/
theorem pixels_bind_endsIff {x : Float} {f : Int → Draw α} {P : Int → Prop}
    (hf : ∀ n, truncate x = .ok n → EndsIff (P n) (f n) e Q) :
    EndsIff (∃ n, truncate x = .ok n ∧ P n) (pixels x >>= f) e Q := by
  cases hx : truncate x with
  | error failure =>
    have heq : (pixels x >>= f) = (throw (.notPixels failure) : Draw α) := by
      unfold pixels
      rw [hx]
      rfl
    rw [heq]
    refine EndsIff.throw ?_
    rintro ⟨n, hn, -⟩
    cases hn
  | ok n =>
    rw [pixels_eq hx, pure_bind]
    refine (hf n hx).congr ⟨?_, fun h => ⟨n, rfl, h⟩⟩
    rintro ⟨m, hm, h⟩
    cases hm
    exact h

theorem pixels_bind_ends {x : Float} {n : Int} (h : truncate x = .ok n) {f : Int → Draw α}
    (hf : Ends (f n) e Q) : Ends (pixels x >>= f) e Q := by
  rwa [pixels_eq h, pure_bind]

theorem ratio_bind_ends {a b : Int} (h : b ≠ 0) {f : Float → Draw α}
    (hf : Ends (f (ofQuotient a b)) e Q) : Ends (ratio a b >>= f) e Q := by
  unfold ratio
  rwa [if_neg h, pure_bind]

/-- Images are taken from the easel. -/
theorem imaging_endsIff (he : o.Like e) {work : Imaging (Nat × Picture)}
    (h : EndsIff P work e.images fun image => e.images.Loaded image.2) :
    EndsIff P (imaging work) e fun image e' => image.2.Sized ∧ o.Like e' :=
  EndsIff.zoom (h.mono fun _ _ hloaded =>
    ⟨hloaded.sized, he.width, he.height, hloaded.root.trans he.root, hloaded.sound⟩)

/-- The image of a sprite can be had exactly if its id names a file. -/
theorem image_endsIff (he : o.Like e) (id : String) :
    EndsIff (o.images.root.Names id) (image id) e fun p e' => p.Sized ∧ o.Like e' := by
  have hplaceholder : IsLength ImageStore.placeholderSize.1 ∧
      IsLength ImageStore.placeholderSize.2 := ⟨⟨by decide, by decide⟩, by decide, by decide⟩
  have hload := imaging_endsIff he (he.images.load id hplaceholder)
  rw [he.root] at hload
  exact hload.then_ends fun _ _ h => Ends.pure h

/-- A picture can be drawn over any rectangle so that it covers it. -/
theorem cover_ends (ho : o.Sized) (he : o.Like e) {p : Picture} (hp : p.Sized) {r : Rect}
    (hr : IsLength r.width ∧ IsLength r.height) : Ends (cover p r) e fun _ => o.Like := by
  have hquotient {m n : Int} (hm : IsLength m) (hn : IsLength n) :
      Within 0 (2 ^ 32) (ofQuotient m n) := by
    have hpos : 0 < n := hn.1
    have hlt : m < 2 ^ 31 := by
      have := hm.2
      omega
    exact (within_ofQuotient hm.nonneg.1 hpos (by decide) hlt).mono le_rfl (by norm_num)
  have hdouble : IsExact (2 ^ 63) := isExact_two_pow (by decide)
  have hwide := hquotient hr.1 hp.width
  have hhigh := hquotient hr.2 hp.height
  unfold cover
  refine ratio_bind_ends (by have := hp.width.1; omega) ?_
  refine ratio_bind_ends (by have := hp.height.1; omega) ?_
  generalize ofQuotient r.width p.width = horizontal at *
  generalize ofQuotient r.height p.height = vertical at *
  have hfactor : Within 0 (2 ^ 32) (if horizontal < vertical then vertical else horizontal) := by
    split
    · exact hhigh
    · exact hwide
  dsimp only
  generalize (if horizontal < vertical then vertical else horizontal) = factor at *
  have hproduct {n : Int} (hn : IsLength n) : Within 0 (2 ^ 63) (ofInt n * factor) :=
    (within_length hn.nonneg).mul hfactor isExact_zero hdouble fun p q hp hq =>
      ⟨mul_nonneg hp.1 hq.1, by nlinarith⟩
  obtain ⟨width, hwidth, -⟩ := exists_truncate_nonneg (hproduct hp.width)
  obtain ⟨height, hheight, -⟩ := exists_truncate_nonneg (hproduct hp.height)
  refine pixels_bind_ends hwidth (pixels_bind_ends hheight ?_)
  obtain ⟨q, hq, -⟩ := p.exists_scale (by omega : 0 ≤ max 1 width) (by omega : 0 ≤ max 1 height)
  refine Ends.lift_bind hq ((area_ends ho he).then_bind fun whole e' he' => ?_)
  obtain ⟨rfl, rfl⟩ := he'
  refine (stroke_ends he _).then_bind fun _ _ he => ?_
  exact (blit_ends he _ _ _).then_bind fun _ _ he => stroke_ends he _

theorem stretch_endsIff (he : o.Like e) (p : Picture) (r : Rect) :
    EndsIff (0 ≤ r.width ∧ 0 ≤ r.height) (stretch p r) e fun _ => o.Like := by
  unfold stretch
  by_cases h : 0 ≤ r.width ∧ 0 ≤ r.height
  · obtain ⟨q, hq, -⟩ := p.exists_scale h.1 h.2
    exact (EndsIff.of_ends (Ends.lift_bind hq (blit_ends he _ _ _))).congr (iff_true_intro h)
  · have hscale : p.scale r.width r.height = .error .negativeScale := if_pos (by omega)
    rw [hscale]
    exact EndsIff.throw h

/-- A picture can be drawn over a rectangle in nine pieces unless the rectangle is of a negative
    size. -/
theorem sliced_endsIff (he : o.Like e) {p : Picture} (hp : p.Sized) {r : Rect} (hr : r.Fits)
    (border : Int) :
    EndsIff (0 ≤ r.width ∧ 0 ≤ r.height) (sliced p r border) e fun _ => o.Like := by
  by_cases hcorner : cornerSize p.width p.height border r = 0
  · unfold sliced
    dsimp only
    rw [if_pos hcorner]
    exact stretch_endsIff he p r
  · obtain ⟨hpositive, -, -, hwidth, hheight⟩ := cornerSize_spec hcorner
    obtain ⟨strokes, houtcome, -⟩ :=
      outcome_sliced_of_corner ⟨hp.width.2, hp.height.2⟩ hr hcorner e
    have hends : Ends (sliced p r border) e fun _ => o.Like :=
      ⟨(), _, houtcome, he.width, he.height, he.root, he.images⟩
    exact (EndsIff.of_ends hends).congr (iff_true_intro ⟨by omega, by omega⟩)

/-- A text of any length can be drawn. -/
theorem exists_ofText (font : Font) (hsize : 0 ≤ font.size) (color : Color) (text : List Char) :
    ∃ p, Picture.ofText font color text = .ok p ∧ p.width = font.measure text ∧
      p.height = font.size := by
  have hwidth : 0 ≤ font.measure text := by
    unfold Font.measure Font.charWidth
    refine Int.mul_nonneg (Int.natCast_nonneg _) ?_
    split <;> omega
  exact ⟨_, if_neg (by omega), rfl, rfl⟩

/-- Lines of text can always be drawn, and keep whatever a picture that is drawn keeps. -/
theorem textLines_keeps {I : Easel → Prop}
    (hblit : ∀ {e}, I e → ∀ (p : Picture) (x y : Int), Ends (blit p x y) e fun _ => I)
    {font : Font} (hsize : 0 ≤ font.size) (color : Color) (x y : Int) {lines : List (List Char)}
    (he : I e) : Ends (textLines font color x y lines) e fun _ => I := by
  induction lines generalizing e y with
  | nil => exact Ends.pure he
  | cons line rest ih =>
    obtain ⟨p, hp, -⟩ := exists_ofText font hsize color line
    exact Ends.lift_bind hp ((hblit he _ _ _).then_bind fun _ _ he => ih _ he)

theorem textLines_ends {font : Font} (hsize : 0 ≤ font.size) (color : Color) (x y : Int)
    {lines : List (List Char)} (he : o.Like e) :
    Ends (textLines font color x y lines) e fun _ => o.Like :=
  textLines_keeps blit_ends hsize color x y he

end Draw

end VisualNovel

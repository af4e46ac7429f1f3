import VisualNovel.Proofs.Drawing.Easel
import VisualNovel.Proofs.Stage.Places
import VisualNovel.Screen.StageView

/-!
When a stage can be drawn. Backgrounds, panels, names, texts and the log can be drawn on every
surface, and so can actors and animations as far as their sprites name files and the numbers of the
script stay in bounds. What fails is the dialogue box: its margins are taken off the width of the
surface, and in a narrow window nothing is left of it, or less.
-/

namespace VisualNovel

open Act Number

/-! ### What can be drawn -/

/-- After scaling, the size of an animation comes to numbers of pixels that a rectangle accepts. -/
def Animated.HasSize (a : Animated Float) : Prop :=
  a.scale == 1 ∨ ∃ width height,
    truncate (ofInt a.sheet.frameWidth * a.scale) = .ok width ∧
    truncate (ofInt a.sheet.frameHeight * a.scale) = .ok height ∧
    width ≤ 9223372036854775807 ∧ height ≤ 9223372036854775807

/-- The centre of an animation comes to numbers of pixels, and those are numbers for a centre. -/
def Animated.HasCentre (o : Easel) (a : Animated Float) : Prop :=
  ∃ x y, truncate (ofInt o.width * a.position.headD 0 / 100) = .ok x ∧
    truncate (ofInt o.height * (a.position.drop 1).headD 0 / 100) = .ok y ∧
    Rect.fits x ∧ Rect.fits y

/-- An animation can be drawn on an easel: its sheet names a file, the time that has passed comes to
    a number of frames, and so do its size and its centre to numbers of pixels. -/
structure Animated.Drawable (o : Easel) (a : Animated Float) : Prop where
  sheet : o.images.root.Names a.sheet.sheet
  frame : ∃ n, a.frame = .ok n
  size : a.HasSize
  centre : a.HasCentre o

/-- The numbers of a sheet have 32 bits. -/
structure SpriteSheet.Sized (s : SpriteSheet) : Prop where
  frames : IsLength s.frames
  width : IsLength s.frameWidth
  height : IsLength s.frameHeight

theorem Animated.frame_bounds {a : Animated Float} (h : 1 ≤ a.sheet.frames) {n : Int}
    (hn : a.frame = .ok n) : 0 ≤ n ∧ n < a.sheet.frames := by
  obtain ⟨m, -, hm⟩ := bind_eq_ok.1 hn
  cases hm
  exact ⟨Int.emod_nonneg _ (by omega), Int.emod_lt_of_pos _ (by omega)⟩

/-- The numbers of a rectangle have 32 bits once they have gone round. -/
theorem Rect.fits_round (x y width height : Int) :
    Rect.Fits ⟨goRound x, goRound y, goRound width, goRound height⟩ where
  x := fits_iff.2 (goRound_bounds x)
  y := fits_iff.2 (goRound_bounds y)
  width := fits_iff.2 (goRound_bounds width)
  height := fits_iff.2 (goRound_bounds height)

/-- There is a rectangle around a centre exactly if its numbers are accepted. -/
theorem Rect.exists_around_iff {width height x y : Int} :
    (∃ r, around width height (x, y) = .ok r) ↔
      isAccepted width ∧ isAccepted height ∧ fits x ∧ fits y := by
  have hzero : isAccepted 0 = true := rfl
  unfold around around? ofNumbers?
  cases hwidth : isAccepted width <;> cases hheight : isAccepted height <;>
    cases hcentre : fits x && fits y <;> simp_all

namespace StageView

variable {o e : Easel}

/-! ### Actors -/

theorem within_actorHeight : Within 0 1 (0.78 : Float) := by
  have h : (0.78 : Float).toModel.unpack = .finite .positive 7025615418697974 (-53) (by decide) := rfl
  refine (within_of_unpack h ⟨by decide, by decide⟩ (by decide)).mono (by positivity) ?_
  norm_num

theorem within_boxHeight : Within 0 1 (0.26 : Float) := by
  have h : (0.26 : Float).toModel.unpack = .finite .positive 4683743612465316 (-54) (by decide) := rfl
  refine (within_of_unpack h ⟨by decide, by decide⟩ (by decide)).mono (by positivity) ?_
  norm_num

theorem facing_size (f : Facing) (p : Picture) :
    (facing f p).width = p.width ∧ (facing f p).height = p.height := by
  unfold facing
  split
  · exact ⟨rfl, rfl⟩
  · exact ⟨rfl, rfl⟩

/-- A place that is not far away comes to a number of pixels. -/
theorem exists_atPercent {length : Int} (hlength : IsLength length) {percent : Float}
    (h : Within (-512) 512 percent) :
    ∃ n, truncate (ofInt length * percent / 100) = .ok n := by
  have hfar : IsExact (2 ^ 40) := isExact_two_pow (by decide)
  have hproduct : Within (-(2 ^ 40)) (2 ^ 40) (ofInt length * percent) :=
    (within_length hlength.nonneg).mul h hfar.neg hfar fun p q hp hq => ⟨by nlinarith, by nlinarith⟩
  exact exists_truncate (isFinite_hundredth hproduct.finite)

/-- A width that keeps the proportions of a picture. -/
theorem exists_width {p : Picture} (hp : p.Sized) {height : Int}
    (hheight : 0 ≤ height ∧ height ≤ 2147483647) :
    ∃ n, truncate (ofQuotient (p.width * height) p.height) = .ok n ∧ 0 ≤ n := by
  have hpos : 0 < p.height := hp.height.1
  have hlow : 0 ≤ p.width * height := Int.mul_nonneg hp.width.nonneg.1 hheight.1
  have hhigh : p.width * height ≤ 2147483647 * 2147483647 :=
    Int.mul_le_mul hp.width.2 hheight.2 hheight.1 (by decide)
  have hlt : p.width * height < 2 ^ 62 := by omega
  have h := within_ofQuotient hlow hpos (by decide) hlt
  exact exists_truncate_nonneg (k := 63) (h.mono le_rfl (by norm_num))

/-- An actor can be drawn exactly if its sprite names a file. -/
theorem drawActor_endsIff (ho : o.Sized) (he : o.Like e) {a : Actor Float}
    (hx : Within (-512) 512 a.x) :
    EndsIff (∀ sprite, a.sprite? = some sprite → o.images.root.Names sprite) (drawActor {} a) e
      fun _ => o.Like := by
  unfold drawActor
  cases hsprite : a.sprite? with
  | none =>
    refine EndsIff.congr (P := True) (EndsIff.of_ends (Ends.pure he)) ?_
    simp
  | some sprite =>
    have hnames : (∀ name, some sprite = some name → o.images.root.Names name) ↔
        o.images.root.Names sprite := by simp
    obtain ⟨height, hheight, hbounds⟩ :=
      exists_truncate_part ho.height.nonneg within_actorHeight
    have hle := ho.height.2
    refine EndsIff.view_bind (EndsIff.congr ?_ hnames)
    dsimp only
    rw [he.width, he.height, Draw.pixels_eq hheight, pure_bind]
    refine (Draw.image_endsIff he sprite).then_ends fun p e' ⟨hp, he'⟩ => ?_
    obtain ⟨width, hwidth, -⟩ := exists_width hp (by omega : 0 ≤ height ∧ height ≤ 2147483647)
    refine Draw.ratio_bind_ends (by have := hp.height.1; omega) (Draw.pixels_bind_ends hwidth ?_)
    obtain ⟨q, hq, -⟩ := p.exists_scale (by omega : 0 ≤ max 1 width) (by omega : 0 ≤ height)
    obtain ⟨shown, hshown, -⟩ := (facing a.facing q).exists_atOpacity a.alpha
    obtain ⟨x, hplace⟩ := exists_atPercent ho.width hx
    refine Ends.lift_bind hq (Ends.lift_bind hshown ?_)
    exact Draw.pixels_bind_ends hplace (Draw.blit_ends he' _ _ _)

/-! ### Animations -/

/-- The picture of an animation is put around its centre. -/
def putFrame (width height : Int) (a : Animated Float) (p : Picture) : Draw Unit := do
  let p := facing a.facing p
  let x ← atPercent width (a.position.headD 0)
  let y ← atPercent height ((a.position.drop 1).headD 0)
  let p ← p.atOpacity a.alpha
  let place ← Rect.around p.width p.height (x, y)
  Draw.blit p place.x place.y

/-- A picture is put around a centre exactly if its size is accepted and there is a centre. -/
theorem putFrame_endsIff (he : o.Like e) (a : Animated Float) (p : Picture) :
    EndsIff ((Rect.isAccepted p.width ∧ Rect.isAccepted p.height) ∧ a.HasCentre o)
      (putFrame o.width o.height a p) e fun _ => o.Like := by
  obtain ⟨q, hq, hwidth, hheight⟩ := (facing a.facing p).exists_atOpacity a.alpha
  obtain ⟨hfacing, hfacing'⟩ := facing_size a.facing p
  have hplace (x y : Int) : EndsIff (∃ r, Rect.around p.width p.height (x, y) = .ok r ∧ True) (do
      let place ← Rect.around q.width q.height (x, y)
      Draw.blit q place.x place.y : Draw Unit) e fun _ => o.Like := by
    rw [hwidth, hheight, hfacing, hfacing']
    exact EndsIff.lift_bind fun place _ => EndsIff.of_ends (Draw.blit_ends he _ _ _)
  unfold putFrame
  dsimp only
  rw [hq]
  refine (Draw.pixels_bind_endsIff fun x _ =>
    Draw.pixels_bind_endsIff fun y _ => hplace x y).congr ?_
  simp only [and_true, Rect.exists_around_iff]
  constructor
  · rintro ⟨⟨hwidth, hheight⟩, x, y, hx, hy, hfits⟩
    exact ⟨x, hx, y, hy, hwidth, hheight, hfits⟩
  · rintro ⟨x, hx, y, hy, hwidth, hheight, hfits⟩
    exact ⟨⟨hwidth, hheight⟩, x, y, hx, hy, hfits⟩

/-- A length that is raised to one is accepted unless it is too large. -/
theorem isAccepted_max {n : Int} : Rect.isAccepted (max 1 n) ↔ n ≤ 9223372036854775807 := by
  rw [Rect.isAccepted_iff]
  omega

/-- A frame is scaled and put in its place exactly if its size and its centre are numbers of
    pixels. -/
theorem scaled_endsIff (he : o.Like e) (a : Animated Float) {p : Picture} (hp : p.Sized) :
    EndsIff (a.HasSize ∧ a.HasCentre o) (do
      if a.scale == 1 then putFrame o.width o.height a p
      else
        let width ← Draw.pixels (ofInt a.sheet.frameWidth * a.scale)
        let height ← Draw.pixels (ofInt a.sheet.frameHeight * a.scale)
        putFrame o.width o.height a (← p.scale (max 1 width) (max 1 height)) : Draw Unit) e
      fun _ => o.Like := by
  by_cases hscale : (a.scale == 1) = true
  · rw [if_pos hscale]
    refine (putFrame_endsIff he a p).congr ⟨fun h => ⟨⟨?_, ?_⟩, h.2⟩, fun h => ⟨.inl hscale, h.2⟩⟩
    · exact Rect.isAccepted_of_isLength hp.width
    · exact Rect.isAccepted_of_isLength hp.height
  · rw [if_neg hscale]
    have hput (width height : Int) :
        EndsIff ((Rect.isAccepted (max 1 width) ∧ Rect.isAccepted (max 1 height)) ∧ a.HasCentre o)
          (do putFrame o.width o.height a (← p.scale (max 1 width) (max 1 height)) : Draw Unit) e
          fun _ => o.Like := by
      obtain ⟨q, hq, hwidth, hheight⟩ :=
        p.exists_scale (by omega : 0 ≤ max 1 width) (by omega : 0 ≤ max 1 height)
      rw [hq, ← hwidth, ← hheight]
      exact putFrame_endsIff he a q
    refine (Draw.pixels_bind_endsIff fun width _ =>
      Draw.pixels_bind_endsIff fun height _ => hput width height).congr ⟨?_, ?_⟩
    · rintro ⟨hone | ⟨width, height, hwidth, hheight, hle, hle'⟩, hcentre⟩
      · exact absurd hone hscale
      · exact ⟨width, hwidth, height, hheight, ⟨isAccepted_max.2 hle, isAccepted_max.2 hle'⟩,
          hcentre⟩
    · rintro ⟨width, hwidth, height, hheight, ⟨hle, hle'⟩, hcentre⟩
      exact ⟨.inr ⟨width, height, hwidth, hheight, isAccepted_max.1 hle, isAccepted_max.1 hle'⟩,
        hcentre⟩

/-- An animation can be drawn exactly if it is drawable. -/
theorem drawAnimation_endsIff (he : o.Like e) {a : Animated Float} (ha : a.sheet.Sized) :
    EndsIff (a.Drawable o) (drawAnimation a) e fun _ => o.Like := by
  unfold drawAnimation
  refine EndsIff.view_bind ?_
  dsimp only
  rw [he.width, he.height]
  cases hframe : a.frame with
  | error failure =>
    refine EndsIff.throw fun h => ?_
    obtain ⟨n, hn⟩ := h.frame
    rw [hframe] at hn
    cases hn
  | ok n =>
    obtain ⟨hlow, hhigh⟩ := Animated.frame_bounds ha.frames.1 hframe
    have hindex : 0 ≤ n ∧ n ≤ 2147483647 := ⟨hlow, by have := ha.frames.2; omega⟩
    have hload := Draw.imaging_endsIff he
      (Imaging.frame_endsIff he.images a.sheet.sheet hindex ha.width ha.height)
    rw [he.root] at hload
    dsimp only
    rw [pure_bind]
    refine (hload.bind fun _ e' ⟨hp, he'⟩ => scaled_endsIff he' a hp).congr ?_
    exact ⟨fun h => ⟨h.sheet, h.size, h.centre⟩, fun h => ⟨h.1, ⟨n, hframe⟩, h.2.1, h.2.2⟩⟩

/-! ### Dialogue -/

theorem names_gui (root : Path) (id : String) : root.Names ("gui/" ++ id) :=
  root.names_of_folder "gui" (by decide) (by decide) (by decide) id

theorem names_backgrounds (root : Path) (id : String) : root.Names ("backgrounds/" ++ id) :=
  root.names_of_folder "backgrounds" (by decide) (by decide) (by decide) id

/-- The box is as wide as the surface without its margins, which may be less than nothing. -/
theorem boxArea_ends (ho : o.Sized) (he : o.Like e) :
    Ends (boxArea {}) e fun box e' =>
      (box.Fits ∧ box.width = o.width - 36 ∧ 0 ≤ box.height) ∧ e' = e := by
  obtain ⟨height, hheight, hlow, hhigh⟩ := exists_truncate_part ho.height.nonneg within_boxHeight
  obtain ⟨hw, hw'⟩ := ho.width
  obtain ⟨hh, hh'⟩ := ho.height
  unfold boxArea
  refine Ends.view_bind ?_
  dsimp only
  have hwide : goRound (o.width - 2 * 18) = o.width - 36 := goRound_of_fits (by omega) (by omega)
  have hhigh : goRound height = height := goRound_of_fits (by omega) (by omega)
  have haccepted : ∀ n ∈ [18, o.height - height - 18, o.width - 2 * 18, height],
      Rect.isAccepted n := by
    intro n hn
    simp only [List.mem_cons, List.not_mem_nil, or_false] at hn
    rw [Rect.isAccepted_iff]
    omega
  rw [he.width, he.height, Draw.pixels_eq hheight, pure_bind, Rect.make_of_accepted haccepted]
  exact Ends.pure ⟨⟨Rect.fits_round _ _ _ _, hwide, hhigh.symm ▸ hlow⟩, rfl⟩

/-- A panel can be drawn unless it is of a negative size. -/
theorem drawPanel_endsIff (he : o.Like e) (s : Stage Float) (panel : Panel) {area : Rect}
    (harea : area.Fits) :
    EndsIff (0 ≤ area.width ∧ 0 ≤ area.height) (drawPanel {} s panel area) e fun _ => o.Like := by
  unfold drawPanel
  cases s.panels.get? panel with
  | some picture =>
    refine EndsIff.congr ((Draw.image_endsIff he _).bind fun p e' ⟨hp, he'⟩ => ?_)
      (and_iff_right (names_gui _ _)).symm
    dsimp only
    split
    · exact Draw.sliced_endsIff he' hp harea _
    · exact Draw.stretch_endsIff he' p area
  | none =>
    dsimp only
    by_cases h : 0 ≤ area.width ∧ 0 ≤ area.height
    · have hwidth := Rect.fits_iff.1 harea.width
      have hheight := Rect.fits_iff.1 harea.height
      have hblank : Picture.blank area.width area.height =
          .ok { origin := .blank, width := area.width, height := area.height } := if_neg (by omega)
      refine (EndsIff.of_ends ?_).congr (iff_true_intro h)
      rw [hblank]
      have hall := Rect.make_of_length ⟨h.1, hwidth.2⟩ ⟨h.2, hheight.2⟩
      exact Ends.lift_bind rfl (Ends.lift_bind hall (Draw.blit_ends he _ _ _))
    · have hblank : Picture.blank area.width area.height = .error .negativePicture :=
        if_pos (by omega)
      rw [hblank]
      exact EndsIff.throw h

/-- The name of whoever speaks can be drawn if it is not so long that its plate goes round. -/
theorem drawName_ends (he : o.Like e) (s : Stage Float) {box : Rect} (hbox : box.Fits)
    {speaker : String} (hspeaker : 14 * speaker.length + 36 ≤ 2147483647) :
    Ends (drawName {} s box speaker) e fun _ => o.Like := by
  obtain ⟨p, hp, hwidth, hheight⟩ :=
    Draw.exists_ofText { size := 26, bold := true } (by decide) ({} : Style).name speaker.toList
  have hmeasure : p.width = speaker.length * 14 := by
    rw [hwidth, Font.measure, String.length_toList]
    rfl
  have hheight : p.height = 26 := hheight
  have hy := Rect.fits_iff.1 hbox.y
  have hx := Rect.fits_iff.1 hbox.x
  have haccepted : ∀ n ∈ [box.x, box.y - p.height - 18, p.width + 2 * 18, p.height + 18],
      Rect.isAccepted n := by
    intro n hn
    simp only [List.mem_cons, List.not_mem_nil, or_false] at hn
    rw [Rect.isAccepted_iff]
    omega
  have hplate := Rect.make_of_accepted haccepted
  have hplateWidth : goRound (p.width + 2 * 18) = p.width + 36 :=
    goRound_of_fits (by omega) (by omega)
  have hplateHeight : goRound (p.height + 18) = 44 := by
    rw [hheight]
    rfl
  unfold drawName
  refine Ends.lift_bind hp (Ends.lift_bind hplate ?_)
  have hfits := Rect.fits_round box.x (box.y - p.height - 18) (p.width + 2 * 18) (p.height + 18)
  have hpanel := (drawPanel_endsIff he s .namebox hfits).ends (by dsimp only; omega)
  refine hpanel.then_bind fun _ e' he' => ?_
  have hacceptedWidth : Rect.isAccepted p.width := Rect.isAccepted_iff.2 (by omega)
  have hacceptedHeight : Rect.isAccepted p.height := Rect.isAccepted_iff.2 (by omega)
  obtain ⟨place, hplace⟩ := Rect.exists_around_iff.2 ⟨hacceptedWidth, hacceptedHeight,
    Rect.fits_iff.2 (goRound_bounds _), Rect.fits_iff.2 (goRound_bounds _)⟩
  exact Ends.lift_bind hplace (Draw.blit_ends he' _ _ _)

/-- A line of dialogue can be drawn exactly if there is room for its box. -/
theorem drawDialogue_endsIff (ho : o.Sized) (he : o.Like e) (s : Stage Float)
    {line : RevealedLine Float}
    (hspeaker : ∀ speaker, line.speaker = some speaker → 14 * speaker.length + 36 ≤ 2147483647) :
    EndsIff (36 ≤ o.width) (drawDialogue {} s line) e fun _ => o.Like := by
  unfold drawDialogue
  refine EndsIff.bind_of_ends (boxArea_ends ho he) fun box e' ⟨⟨hfits, hwidth, hheight⟩, hsame⟩ => ?_
  subst hsame
  refine EndsIff.congr ((drawPanel_endsIff he s .textbox hfits).then_ends fun _ e' he' => ?_)
    (by omega)
  have htext {e : Easel} (he : o.Like e) (color : Color) (lines : List (List Char)) :
      Ends (Draw.textLines { size := 26 } color (box.x + 18) (box.y + 18) lines) e
        fun _ => o.Like := Draw.textLines_ends (by decide) _ _ _ he
  dsimp only
  cases hsome : line.speaker with
  | none => exact htext he' _ _
  | some speaker =>
    dsimp only
    split
    · exact htext he' _ _
    · exact (drawName_ends he' s hfits (hspeaker speaker hsome)).then_bind fun _ _ he => htext he _ _

theorem drawLog_ends (he : o.Like e) (s : Stage Float) :
    Ends (drawLog {} s) e fun _ => o.Like := Draw.textLines_ends (by decide) _ _ _ he

/-! ### The whole stage -/

/-- What has to be so for a stage to be drawn: there is room for the dialogue box if there is one, the
    actors' sprites name files, and the animations can be drawn. -/
structure Drawable (o : Easel) (s : Stage Float) : Prop where
  room : s.isDialogueVisible → 36 ≤ o.width
  actors : ∀ a ∈ s.actors.values, ∀ sprite, a.sprite? = some sprite → o.images.root.Names sprite
  animations : ∀ a ∈ s.animations.values, a.Drawable o

/-- The background can be drawn, whatever its name is, and then the rest is. -/
theorem background_then_endsIff (ho : o.Sized) (he : o.Like e) (background : Option String)
    {rest : Draw Unit} {P : Prop} {Q : Unit → Easel → Prop}
    (hrest : ∀ {e}, o.Like e → EndsIff P rest e Q) :
    EndsIff P (match background with
      | some id =>
        if id.isEmpty then rest
        else do
          Draw.cover (← Draw.image ("backgrounds/" ++ id)) ⟨0, 0, o.width, o.height⟩
          rest
      | none => rest : Draw Unit) e Q := by
  cases background with
  | none => exact hrest he
  | some id =>
    dsimp only
    split
    · exact hrest he
    · have himage := (Draw.image_endsIff he _).ends (names_backgrounds _ id)
      refine EndsIff.bind_of_ends himage fun p e' ⟨hp, he'⟩ => ?_
      have hcover := Draw.cover_ends ho he' hp (r := ⟨0, 0, o.width, o.height⟩) ⟨ho.width, ho.height⟩
      exact EndsIff.bind_of_ends hcover fun _ _ he => hrest he

/-- The dialogue can be drawn exactly if there is none or there is room for it; then the log can. -/
theorem dialogue_endsIff (ho : o.Sized) (he : o.Like e) {s : Stage Float}
    (hspeaker : ∀ line, s.box.line = some line → ∀ speaker, line.speaker = some speaker →
      14 * speaker.length + 36 ≤ 2147483647) :
    EndsIff (s.isDialogueVisible → 36 ≤ o.width) (match s.box.line with
      | some line => do
        drawDialogue {} s line
        drawLog {} s
      | none => drawLog {} s : Draw Unit) e fun _ => o.Like := by
  unfold Stage.isDialogueVisible
  cases hline : s.box.line with
  | none => exact (EndsIff.of_ends (drawLog_ends he s)).congr (by simp)
  | some line =>
    have hdialogue := drawDialogue_endsIff ho he s (hspeaker line hline)
    exact (hdialogue.then_ends fun _ _ he => drawLog_ends he s).congr (by simp)

/-- A stage with actors not far away can be drawn exactly if it is drawable. -/
theorem draw_endsIff (ho : o.Sized) (he : o.Like e) {s : Stage Float}
    (hactors : ∀ a ∈ s.actors.values, Within (-512) 512 a.x)
    (hsheets : ∀ a ∈ s.animations.values, a.sheet.Sized)
    (hspeaker : ∀ line, s.box.line = some line → ∀ speaker, line.speaker = some speaker →
      14 * speaker.length + 36 ≤ 2147483647) :
    EndsIff (Drawable o s) (draw {} s) e fun _ => o.Like := by
  unfold draw
  refine EndsIff.bind_of_ends (Draw.area_ends ho he) fun whole e' ⟨hwhole, hsame⟩ => ?_
  subst hwhole hsame
  refine EndsIff.bind_of_ends (Draw.stroke_ends he _) fun _ e he => ?_
  refine background_then_endsIff ho he s.background fun {e} he => ?_
  have hactors := EndsIff.forM (I := o.Like) (f := drawActor {}) he fun a ha e he =>
    drawActor_endsIff ho he (hactors a ha)
  have hanimations {e : Easel} (he : o.Like e) :
      EndsIff (∀ a ∈ s.animations.values.mergeSort fun a b => a.layer ≤ b.layer, a.Drawable o)
        ((s.animations.values.mergeSort fun a b => a.layer ≤ b.layer).forM drawAnimation) e
        fun _ => o.Like :=
    EndsIff.forM he fun a ha _ he =>
      drawAnimation_endsIff he (hsheets a (List.mem_mergeSort.1 ha))
  refine (hactors.bind fun _ e he => (hanimations he).bind fun _ e he =>
    dialogue_endsIff ho he hspeaker).congr ?_
  simp only [List.mem_mergeSort]
  exact ⟨fun h => ⟨h.actors, h.animations, h.room⟩, fun h => ⟨h.2.2, h.1, h.2.1⟩⟩

/-- A stage with the cast of a directory, however it has lived on, can be drawn exactly if its actors
    and animations can be and the window is at least as wide as the two margins of the dialogue box
    whenever there is one. Of the cosine that actors move with only its bounds are used. -/
theorem draw_completes_iff {cos : Float → Float} (hcos : IsCosine cos) {files : FileTree}
    {root : Path} {cast : Cast} (hcast : Cast.ofDirectory files root = .ok cast)
    (hsheets : ∀ name sheet, (name, sheet) ∈ cast.animations → sheet.frames ≤ 2147483647 ∧
      sheet.frameWidth ≤ 2147483647 ∧ sheet.frameHeight ≤ 2147483647)
    {e : Easel} (he : e.Sized) (himages : e.images.Sound) (reveal : RevealParams Float)
    (durations : EffectDurations Float) (logCapacity : Nat) (deeds : List (Deed Float)) :
    let s := @Stage.after Float (Scalar.ofCosine cos)
      (.empty cast reveal durations logCapacity) deeds
    (∀ line, s.box.line = some line → ∀ speaker, line.speaker = some speaker →
      14 * speaker.length + 36 ≤ 2147483647) →
    (((draw {} s).outcome e).1.isOk ↔ Drawable e s) := by
  intro s hspeaker
  have hsound := Cast.sound_of_ofDirectory hcast
  have hconfined : s.Confined cast (Within (-512) 512) :=
    @Stage.confined_after Float cast _ (Scalar.ofCosine cos) (Position.confine hcos) hsound.filled
      reveal durations logCapacity deeds
  refine (draw_endsIff he ⟨rfl, rfl, rfl, himages⟩ (fun a ha => ?_) (fun a ha => ?_) hspeaker).isOk_iff
  · obtain ⟨⟨name, _⟩, hmem, rfl⟩ := List.mem_map.1 ha
    exact hconfined.actors name _ hmem
  · obtain ⟨⟨name, _⟩, hmem, rfl⟩ := List.mem_map.1 ha
    obtain ⟨key, hkey⟩ := hconfined.animations name _ hmem
    have hcounted := hsound.counted key _ hkey
    obtain ⟨hframes, hwidth, hheight⟩ := hsheets key _ hkey
    exact ⟨⟨hcounted.frames, hframes⟩, ⟨hcounted.width, hwidth⟩, ⟨hcounted.height, hheight⟩⟩

/-- A line of dialogue and nothing else: a window of thirty-six columns will do, one less is too
    narrow. -/
theorem draw_completes_iff_hi :
    let say : Command :=
      { id := 1, subsystem := .dialogue, verb := "say"
        params := { speaker := some (some ""), text := some (some "Hi"), narrator := some true } }
    let s : Stage Float := @Stage.after Float (Scalar.ofCosine fun _ => 1)
      (.empty {} .standard .standard 4) [.command say]
    ((draw {} s).outcome { width := 35, height := 20 }).1.isOk = false ∧
      ((draw {} s).outcome { width := 36, height := 20 }).1.isOk = true := by
  intro say s
  have hcos : IsCosine fun _ => 1 := fun _ _ => within_one.mono (by norm_num) le_rfl
  have hcast : Cast.ofDirectory {} ⟨"", ["assets"]⟩ = .ok {} := rfl
  have himages : ImageStore.Sound {} := ⟨fun _ _ _ => nofun, fun _ _ => nofun⟩
  have hspeaker : ∀ line, s.box.line = some line → ∀ speaker, line.speaker = some speaker →
      14 * speaker.length + 36 ≤ 2147483647 := by
    intro line hline speaker hspeaker
    cases hline
    cases hspeaker
    decide
  have hheight : IsLength 20 := ⟨by decide, by decide⟩
  have hiff (width : Int) (hwidth : IsLength width) :=
    draw_completes_iff hcos hcast (fun _ _ h => absurd h List.not_mem_nil)
      (e := { width, height := 20 }) ⟨hwidth, hheight⟩ himages .standard .standard 4
      [.command say] hspeaker
  have hnarrow := hiff 35 ⟨by decide, by decide⟩
  have hwide := hiff 36 ⟨by decide, by decide⟩
  refine ⟨Bool.eq_false_iff.2 fun h => ?_, hwide.2 ⟨fun _ => le_rfl, ?_, ?_⟩⟩
  · exact absurd ((hnarrow.1 h).room rfl) (by decide)
  · exact fun a h => absurd h List.not_mem_nil
  · exact fun a h => absurd h List.not_mem_nil

end StageView

end VisualNovel

import VisualNovel.Proofs.Number.Bounded
import VisualNovel.Proofs.Stage.Keeping

/-!
Where actors stand. A move goes from where an actor is to one of the places of the script, so nobody
gets far beyond the window, although each number on the way is rounded and a move may begin in the
middle of another one. What the player computes with is known but for the cosine, of which only
its bounds are used.
-/

namespace VisualNovel

open Act

/-! ### Numbers that places never leave -/

variable {α : Type} {cast : Cast} {P : α → Prop}

/-- Actors stand at numbers of a set, and animations are those of the cast. -/
structure Stage.Confined (cast : Cast) (P : α → Prop) (s : Stage α) : Prop where
  cast_eq : s.cast = cast
  actors : ∀ name a, (name, a) ∈ s.actors → P a.x
  animations : ∀ name a, (name, a) ∈ s.animations → ∃ key, (key, a.sheet) ∈ cast.animations

theorem Actor.write_confined {a : Actor α} (ha : P a.x) {slot : Slot} {value : TweenValue α}
    (h : slot = .x → ∃ x, value = .number x ∧ P x) : P (a.write slot value).x := by
  unfold Actor.write
  split
  · exact ha
  · next x =>
    obtain ⟨_, heq, hx⟩ := h rfl
    cases heq
    exact hx
  · exact ha

theorem Animated.sheet_write (a : Animated α) (slot : Slot) (value : TweenValue α) :
    (a.write slot value).sheet = a.sheet := by
  unfold Animated.write
  split <;> rfl

namespace Stage.Confined

variable {s : Stage α}

theorem write (h : s.Confined cast P) {number : Nat} {slot : Slot} {value : TweenValue α}
    (hvalue : slot = .x → ∃ x, value = .number x ∧ P x) :
    (s.write number slot value).Confined cast P := by
  refine ⟨h.cast_eq, fun name a ha => ?_, fun name a ha => ?_⟩
  · obtain ⟨⟨name', old⟩, hmem, heq⟩ := List.mem_map.1 ha
    cases heq
    have hold := h.actors name old hmem
    split
    · exact Actor.write_confined hold hvalue
    · exact hold
  · obtain ⟨⟨name', old⟩, hmem, heq⟩ := List.mem_map.1 ha
    cases heq
    have hold := h.animations name old hmem
    split
    · rwa [Animated.sheet_write]
    · exact hold

/-- An actor on stage is changed, but not its place. -/
theorem change (h : s.Confined cast P) (name : String) {f : Actor α → Actor α}
    (hf : ∀ a : Actor α, (f a).x = a.x) :
    Stage.Confined cast P { s with actors := s.actors.change name f } := by
  refine ⟨h.cast_eq, fun name' a' hmem => ?_, h.animations⟩
  obtain ⟨old, hold, rfl | ⟨rfl, rfl⟩⟩ := Table.exists_of_mem_change hmem
  · exact h.actors name' a' hold
  · rw [hf]
    exact h.actors name' old hold

theorem empty (reveal : RevealParams α) (durations : EffectDurations α) (logCapacity : Nat) :
    (Stage.empty cast reveal durations logCapacity).Confined cast P where
  cast_eq := rfl
  actors _ _ ha := absurd ha List.not_mem_nil
  animations _ _ ha := absurd ha List.not_mem_nil

end Stage.Confined

section Moves

variable [Scalar α]

/-- The places of the script are in a set of numbers, and so is all that is on the way from a number
    of the set to one of them. -/
structure Position.Confine (P : α → Prop) : Prop where
  place : ∀ place : Position, P place.percent
  way : ∀ x (place : Position) t, P x → P (TweenValue.mix x place.percent (Ease.inOutSine.at t))

/-- A tween that moves an actor goes from a number of the set to a place. -/
def Tween.Confined (P : α → Prop) (tw : StageTween α) : Prop :=
  tw.slot = .x → ∃ x, ∃ place : Position, P x ∧ tw.start = .number x ∧
    tw.finish = .number place.percent ∧ tw.ease = .inOutSine

/-- Whatever happens on stage, actors do not leave a set of numbers that has all places and ways. -/
theorem Stage.confined_invariant (hP : Position.Confine P) :
    Invariant cast (Stage.Confined cast P) (Tween.Confined P) where
  cast_eq _ h := h.cast_eq
  of_sheets s s' h hcast hactors hsheets := by
    refine ⟨hcast.trans h.cast_eq, hactors ▸ h.actors, fun name a ha => ?_⟩
    obtain ⟨old, hold, hsheet⟩ := hsheets name a ha
    rw [hsheet]
    exact h.animations name old hold
  appear s name a h hsheet := by
    refine ⟨h.cast_eq, h.actors, fun name' a' ha' => ?_⟩
    rcases Table.eq_or_mem_of_mem_put ha' with heq | hold
    · cases heq
      exact ⟨name, Table.mem_of_get? hsheet⟩
    · exact h.animations name' a' hold
  enter s a place h _ hx _ _ := by
    refine ⟨h.cast_eq, fun name' a' ha' => ?_, h.animations⟩
    rcases Table.eq_or_mem_of_mem_put ha' with heq | hold
    · cases heq
      rw [hx]
      exact hP.place place
    · exact h.actors name' a' hold
  leave _ _ h :=
    ⟨h.cast_eq, fun name a ha => h.actors name a (List.mem_of_mem_filter ha), h.animations⟩
  look _ name _ h := h.change name fun _ => rfl
  feel _ _ name _ _ _ _ _ h := h.change name fun _ => rfl
  value tw v s htw hv h := by
    refine h.write fun hslot => ?_
    obtain ⟨x, place, hx, hstart, hfinish, hease⟩ := htw hslot
    unfold Tween.value? at hv
    rw [hstart, hfinish, hease] at hv
    cases hv
    exact ⟨_, rfl, hP.way x place _ hx⟩
  finish tw s htw h := by
    refine h.write fun hslot => ?_
    obtain ⟨-, place, -, -, hfinish, -⟩ := htw hslot
    exact ⟨_, hfinish, hP.place place⟩
  later _ _ _ htw := htw
  elsewhere _ hslot h := absurd h hslot
  move _ name a place tw h ha _ hstart hfinish hease _ :=
    ⟨a.x, place, h.actors name a (Table.mem_of_get? ha), hstart, hfinish, hease⟩

/-- However an empty stage lives on, actors do not leave such a set. -/
theorem Stage.confined_after (hP : Position.Confine P) (hcast : cast.Filled)
    (reveal : RevealParams α) (durations : EffectDurations α) (logCapacity : Nat)
    (deeds : List (Deed α)) :
    ((empty cast reveal durations logCapacity).after deeds).Confined cast P := by
  have hnone : ∀ i tw, (empty cast reveal durations logCapacity).animator.tween? i = some tw →
      tw.Confined P := fun _ _ htw => by cases htw
  exact ((confined_invariant hP).after hcast ⟨Confined.empty _ _ _, hnone⟩ deeds).stage

end Moves

/-! ### Doubles -/

namespace Scalar

/-- The arithmetic of doubles with a given cosine. -/
@[reducible] def ofCosine (cos : Float → Float) : Scalar Float :=
  { instScalarFloat with wave := fun t => 0.5 - 0.5 * cos (3.141592653589793 * t) }

/-- The cosine of the player gives the arithmetic of the player. -/
theorem ofCosine_cos : ofCosine Float.cos = instScalarFloat := rfl

section Equations

variable (cos : Float → Float)

-- The equations go by way of terms without a class. Two arithmetics that differ in the cosine are not
-- to be compared as a whole.

theorem less_ofCosine : @less Float (ofCosine cos) = less :=
  (rfl : _ = fun a b : Float => decide (a < b)).trans rfl

theorem decimal_ofCosine (digits places : Nat) :
    @decimal Float (ofCosine cos) digits places = decimal digits places :=
  (rfl : _ = Float.ofScientific digits true places).trans rfl

theorem clamp_ofCosine (x : Float) : @clamp Float (ofCosine cos) x = clamp x := by
  unfold clamp greatest least zero one
  simp only [less_ofCosine, decimal_ofCosine]

theorem mix_ofCosine (x y u : Float) :
    @TweenValue.mix Float (ofCosine cos) x y u = x + (y - x) * u :=
  (rfl : _ = Float.add x (Float.mul (Float.sub y x) u)).trans rfl

theorem inOutSine_ofCosine (t : Float) : @Ease.at Float (ofCosine cos) .inOutSine t =
    0.5 - 0.5 * cos (3.141592653589793 * clamp t) := by
  have h : @Ease.at Float (ofCosine cos) .inOutSine t =
      @wave Float (ofCosine cos) (@clamp Float (ofCosine cos) t) := rfl
  rw [h, clamp_ofCosine]
  delta wave
  rfl

theorem percent_ofCosine (place : Position) :
    @Position.percent Float (ofCosine cos) place = place.percent := by
  have hsub (x y : Float) : @HSub.hSub Float Float Float (@instHSub Float (ofCosine cos).toSub) x y =
      x - y := (rfl : _ = Float.sub x y).trans rfl
  unfold Position.percent nat zero
  simp only [decimal_ofCosine, hsub]

end Equations

end Scalar

namespace Number

open Float.Model Float.Model.UnpackedFloat

/-- A cosine: of a finite double it is between minus one and one. -/
def IsCosine (cos : Float → Float) : Prop := ∀ x, IsFinite x.toModel.unpack → Within (-1) 1 (cos x)

section Bounds

variable {x y : Float}

theorem within_half : Within (1 / 2) (1 / 2) (0.5 : Float) := by
  have h : (0.5 : Float).toModel.unpack = .finite .positive (2 ^ 52) (-53) (by decide) := rfl
  refine (within_of_unpack h ⟨by decide, by decide⟩ (by decide)).mono ?_ ?_ <;> norm_num

theorem within_pi : Within 0 4 (3.141592653589793 : Float) := by
  have h : (3.141592653589793 : Float).toModel.unpack =
      .finite .positive 7074237752028440 (-51) (by decide) := rfl
  refine (within_of_unpack h ⟨by decide, by decide⟩ (by decide)).mono ?_ ?_ <;> norm_num

/-- A wave of a cosine is between zero and one. -/
theorem IsCosine.within_wave {cos : Float → Float} (hcos : IsCosine cos) (ht : Within 0 1 x) :
    Within 0 1 (0.5 - 0.5 * cos (3.141592653589793 * x)) := by
  have hzero : IsExact 0 := isExact_zero
  have hone : IsExact 1 := by simpa using isExact_int (n := 1) (by decide)
  have hfour : IsExact 4 := by simpa using isExact_int (n := 4) (by decide)
  have hhalf : IsExact (1 / 2) := within_half.isExact
  have hangle : Within 0 4 (3.141592653589793 * x) :=
    within_pi.mul_fraction ht hzero hfour le_rfl (by norm_num)
  have hproduct : Within (-(1 / 2)) (1 / 2) (0.5 * cos (3.141592653589793 * x)) :=
    within_half.mul (hcos _ hangle.finite) hhalf.neg hhalf fun p q hp hq =>
      ⟨by nlinarith, by nlinarith⟩
  exact within_half.sub hproduct hzero hone fun p q hp hq => ⟨by linarith, by linarith⟩

/-- A number far out that moves towards one near the middle does not get further out, although each
    step of the calculation is rounded. -/
theorem within_mix (hx : Within (-512) 512 x) (hy : Within (-140) 140 y) {u : Float}
    (hu : Within 0 1 u) : Within (-512) 512 (x + (y - x) * u) := by
  have hd (n : Int) (h : n.natAbs < 2 ^ 53) : IsExact n := isExact_int h
  have hzero : IsExact 0 := isExact_zero
  have hout : IsExact 512 := by simpa using hd 512 (by decide)
  have hfar : IsExact 652 := by simpa using hd 652 (by decide)
  have hnear : IsExact 280 := by simpa using hd 280 (by decide)
  rcases hx.split (-140) with hx | hx
  · have hway : Within 0 652 (y - x) :=
      hy.sub hx hzero hfar fun p q hp hq => ⟨by linarith, by linarith⟩
    have hpart : Within 0 652 ((y - x) * u) :=
      hway.mul_fraction hu hzero hfar le_rfl (by norm_num)
    exact hx.add hpart hout.neg hout fun p q hp hq => ⟨by linarith, by linarith⟩
  rcases hx.split 140 with hx | hx
  · have hway : Within (-280) 280 (y - x) :=
      hy.sub hx hnear.neg hnear fun p q hp hq => ⟨by linarith, by linarith⟩
    have hpart : Within (-280) 280 ((y - x) * u) :=
      hway.mul_fraction hu hnear.neg hnear (by norm_num) (by norm_num)
    exact hx.add hpart hout.neg hout fun p q hp hq => ⟨by linarith, by linarith⟩
  · have hway : Within (-652) 0 (y - x) :=
      hy.sub hx hfar.neg hzero fun p q hp hq => ⟨by linarith, by linarith⟩
    have hpart : Within (-652) 0 ((y - x) * u) :=
      hway.mul_fraction hu hfar.neg hzero (by norm_num) le_rfl
    exact hx.add hpart hout.neg hout fun p q hp hq => ⟨by linarith, by linarith⟩

end Bounds

end Number

open Number in
/-- The places of the script are less than one and a half windows away from the left edge. -/
theorem Position.within_percent (place : Position) :
    Within (-140) 140 (place.percent : Float) := by
  have hnat {n m : Nat} {e : Int} {hm : 0 < m}
      (h : (Scalar.nat n : Float).toModel.unpack = .finite .positive m e hm)
      (hcanonical : Canonical m e) (he : e ≤ 971) (hvalue : (m : ℚ) * 2 ^ e ≤ 140) :
      Within (-140) 140 (Scalar.nat n : Float) :=
    (within_of_unpack h hcanonical he).mono
      ((show (-140 : ℚ) ≤ 0 by norm_num).trans (by positivity)) hvalue
  cases place with
  | center =>
    have h : (Scalar.nat 35 : Float).toModel.unpack =
        .finite .positive (35 * 2 ^ 47) (-47) (by decide) := rfl
    exact hnat h ⟨by decide, by decide⟩ (by decide) (by norm_num)
  | farLeft =>
    have h : (Scalar.nat 5 : Float).toModel.unpack =
        .finite .positive (5 * 2 ^ 50) (-50) (by decide) := rfl
    exact hnat h ⟨by decide, by decide⟩ (by decide) (by norm_num)
  | farRight =>
    have h : (Scalar.nat 65 : Float).toModel.unpack =
        .finite .positive (65 * 2 ^ 46) (-46) (by decide) := rfl
    exact hnat h ⟨by decide, by decide⟩ (by decide) (by norm_num)
  | left =>
    have h : (Scalar.nat 20 : Float).toModel.unpack =
        .finite .positive (20 * 2 ^ 48) (-48) (by decide) := rfl
    exact hnat h ⟨by decide, by decide⟩ (by decide) (by norm_num)
  | right =>
    have h : (Scalar.nat 50 : Float).toModel.unpack =
        .finite .positive (50 * 2 ^ 47) (-47) (by decide) := rfl
    exact hnat h ⟨by decide, by decide⟩ (by decide) (by norm_num)
  | invisibleLeft =>
    have h : (Scalar.nat 40 : Float).toModel.unpack =
        .finite .positive (40 * 2 ^ 47) (-47) (by decide) := rfl
    have hforty := hnat h ⟨by decide, by decide⟩ (by decide) (by norm_num)
    have hedge : IsExact 140 := by simpa using isExact_int (n := 140) (by decide)
    exact within_zero.sub hforty hedge.neg hedge fun p q hp hq => ⟨by linarith, by linarith⟩
  | invisibleRight =>
    have h : (Scalar.nat 140 : Float).toModel.unpack =
        .finite .positive (140 * 2 ^ 45) (-45) (by decide) := rfl
    exact hnat h ⟨by decide, by decide⟩ (by decide) (by norm_num)

open Number in
/-- Whatever the cosine, actors do not get further away than five windows and a bit. -/
theorem Position.confine {cos : Float → Float} (hcos : IsCosine cos) :
    @Position.Confine Float (Scalar.ofCosine cos) (Within (-512) 512) := by
  refine @Position.Confine.mk Float (Scalar.ofCosine cos) _ (fun place => ?_) fun x place t hx => ?_
  · rw [Scalar.percent_ofCosine]
    exact place.within_percent.mono (by norm_num) (by norm_num)
  · rw [Scalar.mix_ofCosine, Scalar.percent_ofCosine, Scalar.inOutSine_ofCosine]
    exact within_mix hx place.within_percent (hcos.within_wave (within_clamp t))

end VisualNovel

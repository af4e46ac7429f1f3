import VisualNovel.Proofs.Cast.Characters
import VisualNovel.Proofs.Number.Whole
import VisualNovel.Stage.Stage

/-!
The animations that definitions define. A count is a positive whole number, also where it is written
as a double. A rate is any number that is not at most zero, so infinity and what is no number are
rates, too. Whatever is accepted shows one of its frames as long as the time that has passed comes
to a finite number of them.
-/

namespace VisualNovel.SpriteSheet

open Number (Parts parts unitsPerOne)

/-! ### Numbers of a definition -/

/-- A count under a key: a positive whole number that has a double, or a double of such a value. -/
inductive Counts (entries : List (Data × Data)) (key : String) : Int → Prop where
  | whole {n : Int} (h : Data.get? key entries = some (.int n)) (hpos : 0 < n)
      (hdouble : (Number.ofInt n).isInf = false) : Counts entries key n
  | real {x : Float} {n : Nat} (h : Data.get? key entries = some (.float x)) (hpos : 0 < n)
      (hvalue : parts x = .finite false (n * unitsPerOne)) : Counts entries key n

/-- A rate under a key: the double of a positive whole number, or any double that is not at most
    zero. -/
inductive Rates (entries : List (Data × Data)) (key : String) : Float → Prop where
  | whole {n : Int} (h : Data.get? key entries = some (.int n)) (hpos : 0 < n)
      (hdouble : (Number.ofInt n).isInf = false) : Rates entries key (Number.ofInt n)
  | real {x : Float} (h : Data.get? key entries = some (.float x)) (hx : ¬ x ≤ 0) :
      Rates entries key x

variable {place key : String} {entries : List (Data × Data)}

theorem requireNumber_eq_ok_iff {quantity : Quantity} :
    requireNumber place key entries = .ok quantity ↔
      (∃ n, Data.get? key entries = some (.int n) ∧ quantity = .whole n) ∨
        ∃ x, Data.get? key entries = some (.float x) ∧ quantity = .real x := by
  unfold requireNumber
  split
  · next n hget => simp [hget, eq_comm]
  · next x hget => simp [hget, eq_comm]
  · next hint hfloat =>
    refine ⟨fun h => (by cases h), ?_⟩
    rintro (⟨n, hget, -⟩ | ⟨x, hget, -⟩)
    · exact absurd hget (hint n)
    · exact absurd hget (hfloat x)

theorem toDouble_eq_ok_iff {n : Int} {x : Float} :
    toDouble n = .ok x ↔ (Number.ofInt n).isInf = false ∧ x = Number.ofInt n := by
  unfold toDouble
  dsimp only
  cases (Number.ofInt n).isInf with
  | true => simp
  | false => simp [eq_comm]

/-- A whole positive double is read as its value. -/
theorem truncate_of_whole {x : Float} (hwhole : Number.isWhole x) (hx : ¬ x ≤ 0) :
    ∃ n : Nat, 0 < n ∧ parts x = .finite false (n * unitsPerOne) ∧ Number.truncate x = .ok n := by
  rcases Number.not_le_zero_iff.1 hx with hparts | hparts | ⟨units, hpos, hparts⟩
  · simp [Number.isWhole, hparts] at hwhole
  · simp [Number.isWhole, hparts] at hwhole
  · have hdvd : unitsPerOne ∣ units := by
      simpa [Number.isWhole, hparts, Nat.dvd_iff_mod_eq_zero] using hwhole
    obtain ⟨n, hn⟩ : ∃ n, units = n * unitsPerOne := ⟨_, (Nat.div_mul_cancel hdvd).symm⟩
    rw [hn] at hparts hpos
    refine ⟨n, Nat.pos_of_mul_pos_right hpos, hparts, ?_⟩
    unfold Number.truncate
    rw [hparts]
    dsimp only
    rw [Nat.mul_div_cancel _ Number.unitsPerOne_pos]
    rfl

theorem not_le_zero_of_whole {x : Float} {n : Nat} (hpos : 0 < n)
    (h : parts x = .finite false (n * unitsPerOne)) : Number.isWhole x ∧ ¬ x ≤ 0 := by
  constructor
  · unfold Number.isWhole
    rw [h]
    exact decide_eq_true (Nat.mul_mod_left n unitsPerOne)
  · exact Number.not_le_zero_iff.2 (.inr (.inr ⟨_, Nat.mul_pos hpos Number.unitsPerOne_pos, h⟩))

theorem requireCount_eq_ok_iff {n : Int} :
    requireCount place key entries = .ok n ↔ Counts entries key n := by
  unfold requireCount
  constructor
  · intro h
    obtain ⟨quantity, hquantity, h⟩ := bind_eq_ok.1 h
    rcases requireNumber_eq_ok_iff.1 hquantity with ⟨m, hget, rfl⟩ | ⟨x, hget, rfl⟩
    · obtain ⟨_, hdouble, h⟩ := bind_eq_ok.1 h
      obtain ⟨x, hx, -⟩ := bind_eq_ok.1 hdouble
      dsimp only at h
      split at h
      · cases h
      · next hpos =>
        cases h
        exact .whole hget (Int.not_le.1 hpos) (toDouble_eq_ok_iff.1 hx).1
    · dsimp only at h
      split at h
      · cases h
      next hwhole =>
      split at h
      · cases h
      next hpos =>
      obtain ⟨m, hm, hparts, htruncate⟩ := truncate_of_whole (by simpa using hwhole) hpos
      rw [htruncate] at h
      cases h
      exact .real hget hm hparts
  · intro h
    cases h with
    | @whole m hget hpos hdouble =>
      refine bind_eq_ok.2 ⟨_, requireNumber_eq_ok_iff.2 (.inl ⟨n, hget, rfl⟩), ?_⟩
      refine bind_eq_ok.2 ⟨(), bind_eq_ok.2 ⟨_, toDouble_eq_ok_iff.2 ⟨hdouble, rfl⟩, rfl⟩, ?_⟩
      dsimp only
      rw [if_neg (Int.not_le.2 hpos)]
      rfl
    | @real x m hget hpos hparts =>
      refine bind_eq_ok.2 ⟨_, requireNumber_eq_ok_iff.2 (.inr ⟨x, hget, rfl⟩), ?_⟩
      obtain ⟨hwhole, hx⟩ := not_le_zero_of_whole hpos hparts
      obtain ⟨m', -, hparts', htruncate⟩ := truncate_of_whole hwhole hx
      rw [hparts] at hparts'
      obtain rfl : m = m' :=
        Nat.eq_of_mul_eq_mul_right Number.unitsPerOne_pos (Parts.finite.inj hparts').2
      dsimp only
      rw [hwhole, if_neg hx, htruncate]
      rfl

theorem requireRate_eq_ok_iff {x : Float} :
    requireRate place key entries = .ok x ↔ Rates entries key x := by
  unfold requireRate
  constructor
  · intro h
    obtain ⟨quantity, hquantity, h⟩ := bind_eq_ok.1 h
    rcases requireNumber_eq_ok_iff.1 hquantity with ⟨n, hget, rfl⟩ | ⟨y, hget, rfl⟩
    · dsimp only at h
      split at h
      · cases h
      next hpos =>
      obtain ⟨hdouble, rfl⟩ := toDouble_eq_ok_iff.1 h
      exact .whole hget (Int.not_le.1 hpos) hdouble
    · dsimp only at h
      split at h
      · cases h
      next hy =>
      cases h
      exact .real hget hy
  · intro h
    cases h with
    | @whole n hget hpos hdouble =>
      refine bind_eq_ok.2 ⟨_, requireNumber_eq_ok_iff.2 (.inl ⟨n, hget, rfl⟩), ?_⟩
      dsimp only
      rw [if_neg (Int.not_le.2 hpos)]
      exact toDouble_eq_ok_iff.2 ⟨hdouble, rfl⟩
    | real hget hx =>
      refine bind_eq_ok.2 ⟨_, requireNumber_eq_ok_iff.2 (.inr ⟨x, hget, rfl⟩), ?_⟩
      dsimp only
      rw [if_neg hx]
      rfl

/-! ### Definitions -/

/-- What the entries of a definition say of the animation that they define. -/
structure Describes (entries : List (Data × Data)) (s : SpriteSheet) : Prop where
  name : ∃ d, Data.get? "name" entries = some d ∧ d.trimmed? = some s.name
  sheet : ∃ d, Data.get? "spritesheet" entries = some d ∧ d.trimmed? = some s.sheet
  frames : Counts entries "frames" s.frames
  framesPerSecond : Rates entries "fps" s.framesPerSecond
  frameWidth : Counts entries "frame_width" s.frameWidth
  frameHeight : Counts entries "frame_height" s.frameHeight

/-- A definition is accepted as an animation exactly if it describes that animation. -/
theorem ofEntries_eq_ok_iff {s : SpriteSheet} :
    ofEntries place entries = .ok s ↔ Describes entries s := by
  constructor
  · intro h
    obtain ⟨name, hname, h⟩ := bind_eq_ok.1 h
    obtain ⟨sheet, hsheet, h⟩ := bind_eq_ok.1 h
    obtain ⟨frames, hframes, h⟩ := bind_eq_ok.1 h
    obtain ⟨rate, hrate, h⟩ := bind_eq_ok.1 h
    obtain ⟨width, hwidth, h⟩ := bind_eq_ok.1 h
    obtain ⟨height, hheight, h⟩ := bind_eq_ok.1 h
    cases h
    exact ⟨requireText_eq_ok_iff.1 hname, requireText_eq_ok_iff.1 hsheet,
      requireCount_eq_ok_iff.1 hframes, requireRate_eq_ok_iff.1 hrate,
      requireCount_eq_ok_iff.1 hwidth, requireCount_eq_ok_iff.1 hheight⟩
  · intro h
    exact bind_eq_ok.2 ⟨_, requireText_eq_ok_iff.2 h.name,
      bind_eq_ok.2 ⟨_, requireText_eq_ok_iff.2 h.sheet,
      bind_eq_ok.2 ⟨_, requireCount_eq_ok_iff.2 h.frames,
      bind_eq_ok.2 ⟨_, requireRate_eq_ok_iff.2 h.framesPerSecond,
      bind_eq_ok.2 ⟨_, requireCount_eq_ok_iff.2 h.frameWidth,
      bind_eq_ok.2 ⟨_, requireCount_eq_ok_iff.2 h.frameHeight, rfl⟩⟩⟩⟩⟩⟩

theorem Counts.pos {n : Int} (h : Counts entries key n) : 1 ≤ n := by
  cases h with
  | whole _ hpos _ => exact hpos
  | real _ hpos _ => exact Int.natCast_pos.2 hpos

/-- A rate is a positive finite number, unless what is given is itself infinite or no number. -/
theorem Rates.pos {x : Float} (h : Rates entries key x) :
    (∃ units, 0 < units ∧ parts x = .finite false units) ∨
      Data.get? key entries = some (.float x) ∧
        (parts x = .nan ∨ parts x = .infinite false) := by
  cases h with
  | whole hget hpos hdouble =>
    rcases Number.parts_ofInt_of_pos hpos with hinfinite | hfinite
    · rw [Number.isInf_iff.2 ⟨false, hinfinite⟩] at hdouble
      cases hdouble
    · exact .inl hfinite
  | real hget hx =>
    rcases Number.not_le_zero_iff.1 hx with hnan | hinfinite | hfinite
    · exact .inr ⟨hget, .inl hnan⟩
    · exact .inr ⟨hget, .inr hinfinite⟩
    · exact .inl hfinite

/-- An animation shows one of its frames exactly as long as the time that has passed comes to a
    finite number of them. -/
theorem frame_iff_finite {s : SpriteSheet} (hframes : 1 ≤ s.frames) (a : Animated Float) :
    (∃ i, ({ a with sheet := s } : Animated Float).frame = .ok i ∧ 0 ≤ i ∧ i < s.frames) ↔
      ∃ negative units, parts (a.elapsed * s.framesPerSecond) = .finite negative units := by
  unfold Animated.frame Number.truncate
  dsimp only
  cases parts (a.elapsed * s.framesPerSecond) with
  | nan => simp [bind, Except.bind]
  | infinite negative => simp [bind, Except.bind]
  | finite negative units =>
    refine ⟨fun _ => ⟨_, _, rfl⟩, fun _ => ⟨_, rfl, ?_, ?_⟩⟩
    · exact Int.emod_nonneg _ (by omega)
    · exact Int.emod_lt_of_pos _ (by omega)

/-- A definition is either accepted, with positive counts and with a positive rate unless what is
    given is infinite or no number, or it is refused: with a message about the first breach of the
    format, unless a whole number in it is beyond every double. -/
theorem counted_or_refused (place : String) (entries : List (Data × Data)) :
    (∃ s, ofEntries place entries = .ok s ∧ Describes entries s ∧
      1 ≤ s.frames ∧ 1 ≤ s.frameWidth ∧ 1 ≤ s.frameHeight ∧
      ((∃ units, 0 < units ∧ parts s.framesPerSecond = .finite false units) ∨
        Data.get? "fps" entries = some (.float s.framesPerSecond) ∧
          (parts s.framesPerSecond = .nan ∨ parts s.framesPerSecond = .infinite false)) ∧
      ∀ a : Animated Float,
        (∃ i, ({ a with sheet := s } : Animated Float).frame = .ok i ∧ 0 ≤ i ∧ i < s.frames) ↔
          ∃ negative units, parts (a.elapsed * s.framesPerSecond) = .finite negative units) ∨
    ∃ e, ofEntries place entries = .error e ∧ (∀ s, ¬ Describes entries s) ∧
      (e.message?.isSome ∨ e = .tooLarge ∧
        ∃ key n, key ∈ ["frames", "fps", "frame_width", "frame_height"] ∧
          Data.get? key entries = some (.int n) ∧ (Number.ofInt n).isInf) := by
  cases h : ofEntries place entries with
  | ok s =>
    have hdescribes := ofEntries_eq_ok_iff.1 h
    have hframes := hdescribes.frames.pos
    exact .inl ⟨s, rfl, hdescribes, hframes, hdescribes.frameWidth.pos, hdescribes.frameHeight.pos,
      hdescribes.framesPerSecond.pos, frame_iff_finite hframes⟩
  | error e =>
    refine .inr ⟨e, rfl, fun s hdescribes => ?_, ofEntries_failsWith e h⟩
    rw [ofEntries_eq_ok_iff.2 hdescribes] at h
    cases h

end VisualNovel.SpriteSheet

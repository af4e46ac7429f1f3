import Mathlib.Data.List.Dedup
import Mathlib.Data.List.DropRight
import VisualNovel.Drawing.FontCache

/-!
Fonts that are kept, against the requests for them. A cache keeps the different fonts that were
asked for last since it was cleared, as many as its capacity allows, and makes a font exactly if it
is not one of them. Main statement: `keeps_recent`.
-/

namespace VisualNovel

/-! ### The end of a list -/

section

variable {α : Type}

theorem rtake_append_of_length {as bs : List α} {n : Nat} (h : bs.length = n) :
    (as ++ bs).rtake n = bs := by
  unfold List.rtake
  rw [List.length_append, h, Nat.add_sub_cancel]
  exact List.drop_left

theorem rtake_of_length_le {as : List α} {n : Nat} (h : as.length ≤ n) : as.rtake n = as := by
  unfold List.rtake
  rw [Nat.sub_eq_zero_of_le h, List.drop_zero]

theorem length_rtake_le (as : List α) (n : Nat) : (as.rtake n).length ≤ n := by
  unfold List.rtake
  rw [List.length_drop]
  omega

theorem map_rtake {β : Type} (f : α → β) (as : List α) (n : Nat) :
    (as.rtake n).map f = (as.map f).rtake n := by
  unfold List.rtake
  rw [List.map_drop, List.length_map]

/-- A list ends with its last items, which are all there are or as many as asked for. -/
theorem exists_append_rtake (as : List α) (n : Nat) :
    ∃ front, as = front ++ as.rtake n ∧ (front = [] ∨ (as.rtake n).length = n) := by
  refine ⟨as.take (as.length - n), (List.take_append_drop _ _).symm, ?_⟩
  unfold List.rtake
  rw [List.length_drop]
  rcases Nat.le_total as.length n with hle | hle
  · exact .inl (by rw [Nat.sub_eq_zero_of_le hle, List.take_zero])
  · exact .inr (by omega)

variable [DecidableEq α]

/-- What comes last is the last of the different items, wherever else it was. -/
theorem dedup_concat (as : List α) (a : α) :
    (as ++ [a]).dedup = as.dedup.filter (fun b => b != a) ++ [a] := by
  induction as with
  | nil => rfl
  | cons b as ih =>
    rw [List.cons_append]
    by_cases hmem : b ∈ as
    · rw [List.dedup_cons_of_mem (List.mem_append_left _ hmem), List.dedup_cons_of_mem hmem, ih]
    rw [List.dedup_cons_of_notMem hmem]
    by_cases hba : b = a
    · rw [List.dedup_cons_of_mem (by simp [hba]), List.filter_cons_of_neg (by simpa using hba), ih]
    · rw [List.dedup_cons_of_notMem (by simp [hmem, hba]),
        List.filter_cons_of_pos (by simpa using hba), ih, List.cons_append]

/-- An item that is among the last ones goes to the end, and the others stay. -/
theorem rtake_to_end {as : List α} (hnodup : as.Nodup) {a : α} {n : Nat} (h : a ∈ as.rtake n) :
    (as.filter (fun b => b != a) ++ [a]).rtake n =
      (as.rtake n).filter (fun b => b != a) ++ [a] := by
  obtain ⟨front, heq, hall⟩ := exists_append_rtake as n
  have hle := length_rtake_le as n
  generalize as.rtake n = back at *
  subst heq
  obtain ⟨-, hback, hdisjoint⟩ := List.nodup_append.1 hnodup
  have hlength : (back.filter (fun b => b != a) ++ [a]).length = back.length := by
    rw [List.length_append, ← hback.erase_eq_filter, List.length_erase_of_mem h]
    exact Nat.sub_add_cancel (List.length_pos_of_mem h)
  rw [List.filter_append, List.append_assoc]
  rcases hall with rfl | hall
  · exact rtake_of_length_le (by rwa [List.filter_nil, List.nil_append, hlength])
  · exact rtake_append_of_length (hlength.trans hall)

/-- An item that is not among the last ones takes the place of the first of them. -/
theorem rtake_new_at_end (as : List α) {a : α} {n : Nat} (h : a ∉ as.rtake (n + 1)) :
    (as.filter (fun b => b != a) ++ [a]).rtake (n + 1) = (as.rtake (n + 1) ++ [a]).rtake (n + 1) := by
  obtain ⟨front, heq, hall⟩ := exists_append_rtake as (n + 1)
  generalize as.rtake (n + 1) = back at *
  subst heq
  have hback : back.filter (fun b => b != a) = back :=
    List.filter_eq_self.2 fun b hb => bne_iff_ne.2 fun hba => h (hba ▸ hb)
  rw [List.rtake_concat_succ, List.rtake_concat_succ, List.filter_append, hback]
  rcases hall with rfl | hall
  · rfl
  · obtain ⟨b, back, rfl⟩ := List.exists_cons_of_length_eq_add_one hall
    have hlength : back.length = n := Nat.succ.inj hall
    rw [← List.singleton_append, ← List.append_assoc, rtake_append_of_length hlength,
      rtake_append_of_length hlength]

end

/-! ### Requests -/

/-- A request to a cache of fonts. -/
inductive FontRequest where
  | get (font : Font)
  | clear
  deriving DecidableEq

namespace FontCache

/-- The fonts asked for since the cache was cleared, in order. -/
def asked (rs : List FontRequest) : List Font :=
  rs.foldl (fun fonts r =>
    match r with
    | .get font => fonts ++ [font]
    | .clear => []) []

/-- The different fonts that were asked for last, at most so many, the last one at the end. -/
def recent (count : Nat) (rs : List FontRequest) : List Font := (asked rs).dedup.rtake count

/-- The cache after a request. -/
def serve (cache : FontCache) : FontRequest → FontCache
  | .get font => (cache.get font).2
  | .clear => cache.clear

/-- The cache after requests. -/
def after (cache : FontCache) (rs : List FontRequest) : FontCache := rs.foldl serve cache

/-- The fonts that were handed out, each with its number, in order. -/
def handed (cache : FontCache) : List FontRequest → List (Font × Nat)
  | [] => []
  | .get font :: rs => (font, (cache.get font).1) :: handed (cache.serve (.get font)) rs
  | .clear :: rs => handed (cache.serve .clear) rs

theorem after_concat (cache : FontCache) (rs : List FontRequest) (r : FontRequest) :
    cache.after (rs ++ [r]) = (cache.after rs).serve r := by
  simp [after]

theorem recent_concat_get (count : Nat) (rs : List FontRequest) (font : Font) :
    recent count (rs ++ [.get font]) =
      ((asked rs).dedup.filter (fun f => f != font) ++ [font]).rtake count := by
  unfold recent
  rw [← dedup_concat]
  simp [asked]

theorem recent_concat_clear (count : Nat) (rs : List FontRequest) :
    recent count (rs ++ [.clear]) = [] := by
  simp [recent, asked]

theorem handed_append (cache : FontCache) (rs rs' : List FontRequest) :
    cache.handed (rs ++ rs') = cache.handed rs ++ (cache.after rs).handed rs' := by
  induction rs generalizing cache with
  | nil => rfl
  | cons r rs ih => cases r <;> simp [handed, after, ih]

/-! ### One request -/

/-- A font that is kept is handed out with its number, and goes to the end. -/
theorem get_of_lookup {cache : FontCache} {font : Font} {number : Nat}
    (h : cache.kept.lookup font = some number) :
    cache.get font = (number, { cache with
      kept := (cache.kept.filter fun entry => entry.1 != font) ++ [(font, number)] }) := by
  rw [get, h]

/-- A font that is not kept is made, and the one not asked for the longest goes if there is no room
    for both. -/
theorem get_of_lookup_eq_none {cache : FontCache} {font : Font}
    (h : cache.kept.lookup font = none) :
    cache.get font = (cache.made, { cache with
      kept := (cache.kept ++ [(font, cache.made)]).rtake cache.capacity
      made := cache.made + 1 }) := by
  rw [get, h]
  rfl

theorem capacity_serve (cache : FontCache) (r : FontRequest) :
    (cache.serve r).capacity = cache.capacity := by
  cases r with
  | clear => rfl
  | get font =>
    unfold serve get
    dsimp only
    split <;> rfl

theorem capacity_after (cache : FontCache) (rs : List FontRequest) :
    (cache.after rs).capacity = cache.capacity := by
  induction rs using List.reverseRecOn with
  | nil => rfl
  | append_singleton rs r ih => rw [after_concat, capacity_serve, ih]

/-! ### Requests one after the other -/

/-- What a cache remembers of requests, and of the fonts that it handed out for them. -/
structure Remembers (cache : FontCache) (rs : List FontRequest) (handed : List (Font × Nat)) :
    Prop where
  fonts : cache.kept.map (·.1) = recent cache.capacity rs
  /-- A kept font has the number under which it was handed out last. -/
  numbers : ∀ entry ∈ cache.kept, handed.reverse.lookup entry.1 = some entry.2
  /-- The numbers handed out are those of fonts that were made. -/
  made : ∀ entry ∈ handed, entry.2 < cache.made

namespace Remembers

variable {cache : FontCache} {rs : List FontRequest} {handed : List (Font × Nat)} {font : Font}

/-- A font is found exactly if it is one of those asked for last. -/
theorem lookup_eq_none_iff (h : cache.Remembers rs handed) :
    cache.kept.lookup font = none ↔ font ∉ recent cache.capacity rs := by
  rw [← h.fonts, List.lookup_eq_none_iff, List.mem_map]
  constructor
  · rintro hnone ⟨entry, hentry, rfl⟩
    simpa using hnone entry hentry
  · intro hnot entry hentry
    exact bne_iff_ne.2 fun heq => hnot ⟨entry, hentry, heq.symm⟩

/-- A request for a font that is kept. -/
theorem get_kept (h : cache.Remembers rs handed) (hfont : font ∈ recent cache.capacity rs) :
    ∃ number, handed.reverse.lookup font = some number ∧ cache.get font = (number, { cache with
      kept := (cache.kept.filter fun entry => entry.1 != font) ++ [(font, number)] }) := by
  cases hlookup : cache.kept.lookup font with
  | none => exact absurd hfont (h.lookup_eq_none_iff.1 hlookup)
  | some number =>
    obtain ⟨before, behind, heq, -⟩ := List.lookup_eq_some_iff.1 hlookup
    have hmem : (font, number) ∈ cache.kept := by simp [heq]
    exact ⟨number, h.numbers _ hmem, get_of_lookup hlookup⟩

/-- A request for a font that is not kept. -/
theorem get_made (h : cache.Remembers rs handed) (hfont : font ∉ recent cache.capacity rs) :
    cache.get font = (cache.made, { cache with
      kept := (cache.kept ++ [(font, cache.made)]).rtake cache.capacity
      made := cache.made + 1 }) :=
  get_of_lookup_eq_none (h.lookup_eq_none_iff.2 hfont)

theorem clear (h : cache.Remembers rs handed) : cache.clear.Remembers (rs ++ [.clear]) handed where
  fonts := (recent_concat_clear _ rs).symm
  numbers _ hentry := absurd hentry List.not_mem_nil
  made := h.made

/-- Other fonts keep the numbers under which they were handed out. -/
theorem numbers_of_ne (h : cache.Remembers rs handed) {entry : Font × Nat}
    (hentry : entry ∈ cache.kept) (hne : entry.1 ≠ font) (number : Nat) :
    (handed ++ [(font, number)]).reverse.lookup entry.1 = some entry.2 := by
  rw [List.reverse_append, List.reverse_singleton, List.singleton_append, List.lookup_cons,
    beq_eq_false_iff_ne.2 hne]
  exact h.numbers entry hentry

theorem get (h : cache.Remembers rs handed) (hpos : 0 < cache.capacity) (font : Font) :
    (cache.get font).2.Remembers (rs ++ [.get font]) (handed ++ [(font, (cache.get font).1)]) := by
  have hself (number : Nat) :
      (handed ++ [(font, number)]).reverse.lookup font = some number := by simp
  by_cases hfont : font ∈ recent cache.capacity rs
  · obtain ⟨number, hnumber, heq⟩ := h.get_kept hfont
    rw [heq]
    refine ⟨?_, fun entry hentry => ?_, fun entry hentry => ?_⟩
    · rw [recent_concat_get]
      dsimp only
      rw [rtake_to_end (List.nodup_dedup _) hfont, List.map_append]
      have hothers := congrArg (List.filter (· != font)) h.fonts
      rw [List.filter_map] at hothers
      exact congrArg (· ++ [font]) hothers
    · rcases List.mem_append.1 hentry with hold | hnew
      · obtain ⟨hmem, hne⟩ := List.mem_filter.1 hold
        exact h.numbers_of_ne hmem (bne_iff_ne.1 hne) number
      · rw [List.mem_singleton.1 hnew]
        exact hself number
    · rcases List.mem_append.1 hentry with hold | hnew
      · exact h.made entry hold
      · obtain ⟨before, behind, hhanded, -⟩ := List.lookup_eq_some_iff.1 hnumber
        rw [List.mem_singleton.1 hnew]
        exact h.made (font, number) (List.mem_reverse.1 (by simp [hhanded]))
  · rw [h.get_made hfont]
    obtain ⟨n, hn⟩ : ∃ n, cache.capacity = n + 1 := ⟨_, (Nat.succ_pred_eq_of_pos hpos).symm⟩
    refine ⟨?_, fun entry hentry => ?_, fun entry hentry => ?_⟩
    · rw [recent_concat_get]
      dsimp only
      have hfonts := h.fonts
      rw [hn] at hfont hfonts ⊢
      rw [rtake_new_at_end _ hfont, map_rtake, List.map_append, hfonts]
      rfl
    · rcases List.mem_append.1 (List.mem_of_mem_drop hentry) with hold | hnew
      · refine h.numbers_of_ne hold (fun heq => hfont ?_) _
        rw [← h.fonts, ← heq]
        exact List.mem_map_of_mem hold
      · rw [List.mem_singleton.1 hnew]
        exact hself _
    · rcases List.mem_append.1 hentry with hold | hnew
      · exact Nat.lt_succ_of_lt (h.made entry hold)
      · rw [List.mem_singleton.1 hnew]
        exact Nat.lt_succ_self _

end Remembers

/-- A cache remembers all requests since it was empty. -/
theorem remembers_after {cache : FontCache} (hpos : 0 < cache.capacity) (hempty : cache.kept = [])
    (rs : List FontRequest) : (cache.after rs).Remembers rs (cache.handed rs) := by
  induction rs using List.reverseRecOn with
  | nil =>
    refine ⟨?_, by simp [after, hempty], by simp [handed]⟩
    simp [after, hempty, recent, asked]
  | append_singleton rs r ih =>
    rw [after_concat, handed_append]
    cases r with
    | clear =>
      rw [show (cache.after rs).handed [.clear] = [] from rfl, List.append_nil]
      exact ih.clear
    | get font => exact ih.get (by rwa [capacity_after]) font

/-- A cache that is asked for fonts and cleared, in whatever order, keeps exactly the different
    fonts asked for last since it was cleared, as many as the capacity allows, but at least one. A
    request for one of these is answered with the font that was handed out for it last; a request
    for any other font makes one, with a number that was never handed out. -/
theorem keeps_recent (capacity : Int) (rs : List FontRequest) (font : Font) :
    let cache := (ofCapacity capacity).after rs
    let handed := (ofCapacity capacity).handed rs
    let fonts := recent (max 1 capacity).toNat rs
    cache.kept.map (·.1) = fonts ∧ (cache.kept.length : Int) ≤ max 1 capacity ∧
      if font ∈ fonts then
        (cache.get font).2.made = cache.made ∧
          handed.reverse.lookup font = some (cache.get font).1
      else
        (cache.get font).2.made = cache.made + 1 ∧
          (cache.get font).1 ∉ handed.map (·.2) := by
  intro cache handed fonts
  have hpos : 0 < (ofCapacity capacity).capacity := by
    show 0 < (max 1 capacity).toNat
    omega
  have hremembers : cache.Remembers rs handed := remembers_after hpos rfl rs
  have hcapacity : cache.capacity = (max 1 capacity).toNat := capacity_after _ rs
  have hfonts : cache.kept.map (·.1) = fonts := by
    rw [hremembers.fonts, hcapacity]
  refine ⟨hfonts, ?_, ?_⟩
  · have hlength := length_rtake_le (asked rs).dedup (max 1 capacity).toNat
    rw [← List.length_map, hfonts]
    show ((recent _ rs).length : Int) ≤ _
    unfold recent
    omega
  rw [show fonts = recent cache.capacity rs by rw [hcapacity]]
  split
  · next hfont =>
    obtain ⟨number, hnumber, heq⟩ := hremembers.get_kept hfont
    rw [heq]
    exact ⟨rfl, hnumber⟩
  · next hfont =>
    rw [hremembers.get_made hfont]
    refine ⟨rfl, fun hmem => ?_⟩
    obtain ⟨entry, hentry, heq⟩ := List.mem_map.1 hmem
    exact absurd heq (hremembers.made entry hentry).ne

/-- A capacity of nothing is one of a single font: it is kept after it was asked for, and handed out
    again. -/
theorem keeps_one_at_capacity_zero :
    let cache := (ofCapacity 0).after [.get ⟨12, false⟩]
    ¬ (cache.kept.length : Int) ≤ 0 ∧ (cache.get ⟨12, false⟩).2.made = cache.made := by
  decide

end FontCache

end VisualNovel

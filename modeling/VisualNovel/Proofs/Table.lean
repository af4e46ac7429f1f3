import VisualNovel.Table

/-!
Looking things up in tables: what is there after a value was put in, taken out or changed.
-/

namespace VisualNovel.Table

variable {κ β γ : Type} [BEq κ] {t : Table κ β} {key : κ} {value : β}

/-! ### Entries -/

section Entries

variable [LawfulBEq κ]

/-- What is found under a key is an entry with that key. -/
theorem mem_of_get? (h : t.get? key = some value) : (key, value) ∈ t := by
  obtain ⟨⟨k, v⟩, hfind, rfl⟩ := Option.map_eq_some_iff.1 h
  have hkey := List.find?_some hfind
  obtain rfl : k = key := eq_of_beq hkey
  exact List.mem_of_find?_eq_some hfind

/-- An entry of a table that a value was put in is that one or was there before. -/
theorem eq_or_mem_of_mem_put {entry : κ × β} (h : entry ∈ t.put key value) :
    entry = (key, value) ∨ entry ∈ t := by
  unfold put at h
  split at h
  · obtain ⟨⟨k, old⟩, hmem, rfl⟩ := List.mem_map.1 h
    dsimp only
    split
    · next hkey => exact .inl (eq_of_beq hkey ▸ rfl)
    · exact .inr hmem
  · rcases List.mem_append.1 h with hmem | hmem
    · exact .inr hmem
    · exact .inl (List.mem_singleton.1 hmem)

/-- An entry of a table with the value under a key changed is one from before, changed if it has
    that key. -/
theorem exists_of_mem_change {f : β → β} {k : κ} {v : β} (h : (k, v) ∈ t.change key f) :
    ∃ old, (k, old) ∈ t ∧ (v = old ∨ k = key ∧ v = f old) := by
  obtain ⟨⟨k', old⟩, hmem, heq⟩ := List.mem_map.1 h
  dsimp only at heq
  split at heq
  · next hkey =>
    cases heq
    exact ⟨old, hmem, .inr ⟨eq_of_beq hkey, rfl⟩⟩
  · cases heq
    exact ⟨v, hmem, .inl rfl⟩

end Entries

/-! ### Changed values -/

theorem get?_map (t : Table κ β) (f : β → γ) (key : κ) :
    get? (t.map fun (k, v) => (k, f v)) key = (t.get? key).map f := by
  unfold get?
  rw [List.find?_map, Option.map_map, Option.map_map]
  rfl

theorem map_put (t : Table κ β) (f : β → γ) (key : κ) (value : β) :
    ((t.put key value).map fun (k, v) => (k, f v)) =
      put (t.map fun (k, v) => (k, f v)) key (f value) := by
  have hhas : has (t.map fun (k, v) => (k, f v)) key = t.has key := by
    unfold has
    rw [List.any_map]
    rfl
  unfold put
  rw [hhas]
  split
  · simp only [List.map_map]
    refine List.map_congr_left fun (k, v) _ => ?_
    dsimp only [Function.comp_apply]
    split <;> rfl
  · rw [List.map_append]
    rfl

/-- What changing values leaves of each is found as before. -/
theorem map_get?_of_eq {f : κ × β → κ × β} {g : β → γ} (hkey : ∀ e, (f e).1 = e.1)
    (hvalue : ∀ e, g (f e).2 = g e.2) (key : κ) :
    (get? (t.map f) key).map g = (t.get? key).map g := by
  unfold get?
  have hsame : (fun e : κ × β => e.1 == key) ∘ f = fun e => e.1 == key :=
    funext fun e => by simp only [Function.comp_apply, hkey]
  rw [List.find?_map, hsame]
  cases t.find? fun e => e.1 == key with
  | none => rfl
  | some e => simp [hvalue]

theorem map_get?_change {f : β → β} {g : β → γ} (hvalue : ∀ v, g (f v) = g v) (key key' : κ) :
    (get? (t.change key f) key').map g = (t.get? key').map g := by
  refine map_get?_of_eq (fun (k, v) => ?_) (fun (k, v) => ?_) key'
  · dsimp only
    split <;> rfl
  · dsimp only
    split
    · exact hvalue v
    · rfl

/-! ### Values put in and taken out -/

theorem get?_eq_none_of_not_has (h : ¬ t.has key) : t.get? key = none := by
  rw [get?, Option.map_eq_none_iff, List.find?_eq_none]
  exact fun e he hkey => h (List.any_eq_true.2 ⟨e, he, hkey⟩)

theorem has_iff_exists_get? : t.has key ↔ ∃ value, t.get? key = some value := by
  have hany : t.has key = (t.find? fun (k, _) => k == key).isSome :=
    (List.isSome_find? ..).symm
  rw [hany, Option.isSome_iff_exists]
  unfold get?
  constructor
  · rintro ⟨e, he⟩
    exact ⟨e.2, by rw [he, Option.map_some]⟩
  · rintro ⟨value, hget⟩
    obtain ⟨e, he, -⟩ := Option.map_eq_some_iff.1 hget
    exact ⟨e, he⟩

theorem get?_put_of_not_found (h : t.get? key = none) (value : β) (key' : κ) :
    (t.put key value).get? key' = (t.get? key').or (if key == key' then some value else none) := by
  have hhas : ¬ t.has key := fun hhas => by
    obtain ⟨old, hold⟩ := has_iff_exists_get?.1 hhas
    rw [h] at hold
    cases hold
  unfold put
  rw [if_neg hhas]
  unfold get?
  rw [List.find?_append, Option.map_or, List.find?_singleton, apply_ite (Option.map _)]
  rfl

/-- Keys that are the same find the same. -/
theorem get?_congr [PartialEquivBEq κ] {key' : κ} (h : key == key') (t : Table κ β) :
    t.get? key = t.get? key' := by
  unfold get?
  congr 2
  funext e
  exact BEq.congr_right h

variable [LawfulBEq κ] [DecidableEq κ]

theorem get?_cons (k : κ) (v : β) (t : Table κ β) (key : κ) :
    get? ((k, v) :: t) key = if k = key then some v else t.get? key := by
  unfold get?
  rw [List.find?_cons]
  by_cases h : k = key
  · simp [h]
  · have hkey : (k == key) = false := beq_eq_false_iff_ne.2 h
    simp only [hkey, if_neg h]

/-- A value that takes the place of another one under its key. -/
theorem get?_replace (h : t.has key) (value : β) (key' : κ) :
    get? (t.map fun (k, old) => if k == key then (k, value) else (k, old)) key' =
      if key' = key then some value else t.get? key' := by
  have hother (t : Table κ β) (hne : key' ≠ key) :
      get? (t.map fun (k, old) => if k == key then (k, value) else (k, old)) key' =
        t.get? key' := by
    induction t with
    | nil => rfl
    | cons e t ih =>
      obtain ⟨k, v⟩ := e
      rw [List.map_cons, get?_cons, get?_cons, ih]
      by_cases hk : k = key
      · simp [hk, hne.symm]
      · simp [hk]
  by_cases hkey : key' = key
  · subst hkey
    rw [if_pos rfl]
    induction t with
    | nil => cases h
    | cons e t ih =>
      obtain ⟨k, v⟩ := e
      rw [List.map_cons, get?_cons]
      by_cases hk : k = key'
      · simp [hk]
      · have hrest : has t key' := by simpa [has, hk] using h
        rw [ih hrest]
        simp [hk]
  · rw [if_neg hkey, hother t hkey]

theorem get?_put (t : Table κ β) (key : κ) (value : β) (key' : κ) :
    (t.put key value).get? key' = if key' = key then some value else t.get? key' := by
  unfold put
  split
  · next h => exact get?_replace h value key'
  · next h =>
    have hnone : t.get? key = none := get?_eq_none_of_not_has h
    unfold get? at hnone ⊢
    rw [List.find?_append, Option.map_or]
    by_cases hkey : key' = key
    · subst hkey
      rw [if_pos rfl, hnone]
      simp
    · rw [if_neg hkey]
      simp [beq_eq_false_iff_ne.2 (Ne.symm hkey)]

theorem get?_erase (t : Table κ β) (key key' : κ) :
    (t.erase key).get? key' = if key' = key then none else t.get? key' := by
  induction t with
  | nil => exact (ite_self _).symm
  | cons e t ih =>
    obtain ⟨k, v⟩ := e
    unfold erase at ih ⊢
    by_cases hk : k = key
    · subst hk
      rw [List.filter_cons_of_neg (by simp), ih, get?_cons]
      by_cases hkey : key' = k
      · rw [if_pos hkey, if_pos hkey]
      · rw [if_neg hkey, if_neg hkey, if_neg (Ne.symm hkey)]
    · rw [List.filter_cons_of_pos (by simpa using hk), get?_cons, get?_cons, ih]
      by_cases hkey : k = key'
      · subst hkey
        rw [if_pos rfl, if_neg hk, if_pos rfl]
      · rw [if_neg hkey, if_neg hkey]

end VisualNovel.Table

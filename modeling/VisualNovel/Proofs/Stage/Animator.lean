import Mathlib.Data.List.Basic
import VisualNovel.Proofs.Act
import VisualNovel.Stage.Animator

/-!
The animator as the list of its unfinished tweens, for a host whose callbacks leave the animator
alone. Updating, adding and cancelling are plain operations on that list, and every tween that
ends in them is acknowledged once, in order.
-/

namespace VisualNovel

open Act

variable {σ ε ω τ κ ν α : Type}

/-! ### Tweens -/

namespace Tween

/-- Start and end are both numbers or both tuples. -/
def Mixes (tw : Tween ω τ κ α) : Prop :=
  match tw.start, tw.finish with
  | .number _, .number _ => True
  | .tuple _, .tuple _ => True
  | _, _ => False

theorem Mixes.value? [Scalar α] {tw : Tween ω τ κ α} (h : tw.Mixes) :
    ∃ v, tw.value? = some v := by
  unfold Tween.value? TweenValue.between?
  unfold Mixes at h
  split
  · exact ⟨_, rfl⟩
  · exact ⟨_, rfl⟩
  · next hnumber htuple =>
    split at h
    · next a b ha hb => exact (hnumber a b ha hb).elim
    · next xs ys hxs hys => exact (htuple xs ys hxs hys).elim
    · exact h.elim

/-- The tween at its end. -/
def ended (tw : Tween ω τ κ α) : Tween ω τ κ α := { tw with isDone := true }

/-- The tween a time later, with nothing else on its attribute. -/
def after [Scalar α] (dt : α) (tw : Tween ω τ κ α) : Tween ω τ κ α :=
  { tw with
    elapsed := tw.elapsed + dt
    isDone := ({ tw with elapsed := tw.elapsed + dt } : Tween ω τ κ α).isOver }

/-- The tween once another one begins, which ends it if both drive the same attribute. -/
def yieldTo [BEq ω] [BEq τ] (new tw : Tween ω τ κ α) : Tween ω τ κ α :=
  if tw.drivesSame new then tw.ended else tw

/-- What is noted when a tween is done. -/
def notes (note : κ → ν) (tw : Tween ω τ κ α) : List ν :=
  if tw.isDone then (tw.onDone.map note).toList else []

end Tween

/-! ### Pools -/

namespace Animator

variable {a : Animator ω τ κ α} {f : Tween ω τ κ α → Tween ω τ κ α}

theorem tween?_change (i j : Nat) :
    (a.change i f).tween? j = if i = j then (a.tween? j).map f else a.tween? j := by
  simp [change, tween?, Array.getElem?_modify]

theorem tween?_make (tw : Tween ω τ κ α) (i : Nat) :
    (a.make tw).tween? i = if i = a.pool.size then some tw else a.tween? i := by
  simp [make, tween?, Array.getElem?_push]

/-- It only matters what a change makes of the tween that is there. -/
theorem change_congr {g : Tween ω τ κ α → Tween ω τ κ α} {i : Nat}
    (h : ∀ tw, a.tween? i = some tw → f tw = g tw) : a.change i f = a.change i g := by
  have hpool : a.pool.modify i f = a.pool.modify i g := by
    refine Array.ext_getElem? fun j => ?_
    rw [Array.getElem?_modify, Array.getElem?_modify]
    split
    · next heq =>
      subst heq
      exact Option.map_congr h
    · rfl
  rw [change, change, hpool]

/-- What a tween is for: whose attribute it drives, and what is done at its end. -/
def task? (a : Animator ω τ κ α) (i : Nat) : Option (ω × τ × Option κ) :=
  (a.tween? i).map fun tw => (tw.object, tw.slot, tw.onDone)

theorem task?_change (hf : ∀ tw, a.tween? i = some tw →
      ((f tw).object, (f tw).slot, (f tw).onDone) = (tw.object, tw.slot, tw.onDone)) (j : Nat) :
    (a.change i f).task? j = a.task? j := by
  unfold task?
  rw [tween?_change]
  split
  · next heq =>
    subst heq
    cases htw : a.tween? i with
    | none => rfl
    | some tw => simpa using hf tw htw
  · rfl

theorem isDone_change_of_ne {i j : Nat} (h : i ≠ j) : (a.change i f).isDone j = a.isDone j := by
  unfold isDone
  rw [tween?_change, if_neg h]

theorem isDone_change_self {i : Nat} {tw : Tween ω τ κ α} (htw : a.tween? i = some tw) :
    (a.change i f).isDone i = (f tw).isDone := by
  simp [isDone, tween?_change, htw]

theorem task?_make (tw : Tween ω τ κ α) {i : Nat} (hi : i < a.pool.size) :
    (a.make tw).task? i = a.task? i := by
  rw [task?, tween?_make, if_neg (Nat.ne_of_lt hi), task?]

theorem isDone_make (tw : Tween ω τ κ α) {i : Nat} (hi : i < a.pool.size) :
    (a.make tw).isDone i = a.isDone i := by
  rw [isDone, tween?_make, if_neg (Nat.ne_of_lt hi), isDone]

theorem isDone_of_tween? {i : Nat} {tw : Tween ω τ κ α} (htw : a.tween? i = some tw) :
    a.isDone i = tw.isDone := by
  simp [isDone, htw]

theorem exists_tween?_of_isDone_eq_false {i : Nat} (h : a.isDone i = false) :
    ∃ tw, a.tween? i = some tw ∧ tw.isDone = false := by
  unfold isDone at h
  split at h
  · next tw htw => exact ⟨tw, htw, h⟩
  · cases h

theorem size_change (i : Nat) : (a.change i f).pool.size = a.pool.size := Array.size_modify ..

/-- No tween runs twice, and every one that runs was made and is not done. -/
structure Sound (a : Animator ω τ κ α) : Prop where
  nodup : a.running.Nodup
  running : ∀ i ∈ a.running, ∃ tw, a.tween? i = some tw ∧ tw.isDone = false

/-- The tweens that run and are not done, oldest first. -/
def unfinished (a : Animator ω τ κ α) : List (Tween ω τ κ α) :=
  a.running.filterMap fun i => (a.tween? i).filter fun tw => !tw.isDone

theorem Sound.filter_tween? (h : a.Sound) {i : Nat} (hi : i ∈ a.running) :
    ((a.tween? i).filter fun tw => !tw.isDone) = a.tween? i := by
  obtain ⟨tw, htw, hdone⟩ := h.running i hi
  simp [htw, hdone]

theorem Sound.unfinished_eq (h : a.Sound) : a.unfinished = a.running.filterMap a.tween? :=
  List.filterMap_congr fun _ hi => h.filter_tween? hi

/-- A tween that is swept away is done. -/
theorem unfinished_eq_of_running {b : Animator ω τ κ α} {is : List Nat}
    (hrunning : b.running = is.filter fun i => !b.isDone i) (hall : ∀ i ∈ is, (b.tween? i).isSome) :
    b.unfinished = is.filterMap fun i => (b.tween? i).filter fun tw => !tw.isDone := by
  unfold unfinished
  rw [hrunning, List.filterMap_filter]
  refine List.filterMap_congr fun i hi => ?_
  obtain ⟨tw, htw⟩ := Option.isSome_iff_exists.1 (hall i hi)
  cases hdone : tw.isDone <;> simp [isDone, htw, hdone, Option.filter]

/-- A tween that runs has a number below that of the next one made. -/
theorem Sound.lt_size (h : a.Sound) {i : Nat} (hi : i ∈ a.running) : i < a.pool.size := by
  obtain ⟨tw, htw, -⟩ := h.running i hi
  exact (Array.getElem?_eq_some_iff.1 htw).1

theorem Sound.tween?_make (h : a.Sound) (tw : Tween ω τ κ α) {i : Nat} (hi : i ∈ a.running) :
    (a.make tw).tween? i = a.tween? i := by
  rw [Animator.tween?_make, if_neg (Nat.ne_of_lt (h.lt_size hi))]

/-- A tween that is made does not run yet. -/
theorem Sound.make (h : a.Sound) (tw : Tween ω τ κ α) : (a.make tw).Sound := by
  refine ⟨h.nodup, fun i hi => ?_⟩
  rw [h.tween?_make tw hi]
  exact h.running i hi

theorem Sound.unfinished_make (h : a.Sound) (tw : Tween ω τ κ α) :
    (a.make tw).unfinished = a.unfinished :=
  List.filterMap_congr fun i hi => by rw [h.tween?_make tw hi]

theorem tween?_make_self (tw : Tween ω τ κ α) : (a.make tw).tween? a.pool.size = some tw := by
  rw [tween?_make, if_pos rfl]

theorem Sound.not_mem_running_make (h : a.Sound) (tw : Tween ω τ κ α) :
    a.pool.size ∉ (a.make tw).running :=
  fun hmem => Nat.lt_irrefl _ (h.lt_size hmem)

theorem Sound.cancel [BEq ω] (h : a.Sound) (object : ω) : (a.cancel object).Sound :=
  ⟨h.nodup.sublist List.filter_sublist, fun i hi => h.running i (List.mem_filter.1 hi).1⟩

/-- Cancelling takes away the tweens on an object, and no others. -/
theorem Sound.unfinished_cancel [BEq ω] (h : a.Sound) (object : ω) :
    (a.cancel object).unfinished = a.unfinished.filter fun tw => !(tw.object == object) := by
  rw [(h.cancel object).unfinished_eq, h.unfinished_eq, List.filter_filterMap]
  show (a.running.filter _).filterMap a.tween? = _
  rw [List.filterMap_filter]
  refine List.filterMap_congr fun i hi => ?_
  obtain ⟨tw, htw, -⟩ := h.running i hi
  cases hobject : tw.object == object <;> simp [htw, hobject, Option.filter]

end Animator

/-! ### Hosts -/

/-- A host whose callbacks leave its animator alone and only note that they ran; `log` is where it
    keeps its notes. -/
structure Host.Quiet (h : Host σ ε ω τ κ α) (log : σ → List ν) (note : κ → ν) : Prop where
  animator_set : ∀ a s, h.animator (h.setAnimator a s) = a
  log_set : ∀ a s, log (h.setAnimator a s) = log s
  animator_write : ∀ object slot value s, h.animator (h.write object slot value s) = h.animator s
  log_write : ∀ object slot value s, log (h.write object slot value s) = log s
  fire : ∀ k s, Ends (h.fire k) s fun _ s' =>
    h.animator s' = h.animator s ∧ log s' = log s ++ [note k]

namespace Host

variable {h : Host σ ε ω τ κ α} {log : σ → List ν} {note : κ → ν} {s : σ} {i : Nat}
  {tw : Tween ω τ κ α} {f : Tween ω τ κ α → Tween ω τ κ α}

theorem Quiet.animator_modify (hq : h.Quiet log note) (f : Animator ω τ κ α → Animator ω τ κ α) :
    h.animator (h.modify f s) = f (h.animator s) :=
  hq.animator_set _ _

theorem Quiet.log_modify (hq : h.Quiet log note) (f : Animator ω τ κ α → Animator ω τ κ α) :
    log (h.modify f s) = log s :=
  hq.log_set _ _

/-- What becomes of the host when some of its tweens change: no others do, none is added or taken
    away, and those that are done then are noted in order. -/
structure Changes (h : Host σ ε ω τ κ α) (log : σ → List ν) (note : κ → ν) (s : σ)
    (f : Tween ω τ κ α → Tween ω τ κ α) (is : List Nat) (s' : σ) : Prop where
  running : (h.animator s').running = (h.animator s).running
  tween? : ∀ j, (h.animator s').tween? j =
    if j ∈ is then ((h.animator s).tween? j).map f else (h.animator s).tween? j
  log : log s' = log s ++ (is.filterMap (h.animator s).tween?).flatMap fun tw => (f tw).notes note

theorem Changes.nil : h.Changes log note s f [] s :=
  ⟨rfl, fun j => by simp, by simp⟩

/-- Changes add up, as long as no tween is changed twice. -/
theorem Changes.cons {s' s'' : σ} {is : List Nat} (hi : i ∉ is)
    (h₁ : h.Changes log note s f [i] s') (h₂ : h.Changes log note s' f is s'') :
    h.Changes log note s f (i :: is) s'' := by
  have hsame : ∀ j ∈ is, (h.animator s').tween? j = (h.animator s).tween? j := by
    intro j hj
    rw [h₁.tween?, if_neg]
    rw [List.mem_singleton]
    rintro rfl
    exact hi hj
  refine ⟨h₂.running.trans h₁.running, fun j => ?_, ?_⟩
  · rw [h₂.tween?]
    by_cases hj : j ∈ is
    · rw [if_pos hj, if_pos (List.mem_cons_of_mem i hj), hsame j hj]
    · rw [if_neg hj, h₁.tween?]
      simp [hj]
  · rw [h₂.log, h₁.log, List.filterMap_congr hsame, List.append_assoc, ← List.flatMap_append,
      ← List.filterMap_append]
    rfl

/-- A tween that is brought to its end. -/
theorem finish_ends (hq : h.Quiet log note) (htw : (h.animator s).tween? i = some tw)
    (hdone : tw.isDone = false) :
    Ends (h.finish i) s fun _ s' => h.Changes log note s Tween.ended [i] s' := by
  have hchange (s' : σ) (hs' : h.animator s' = (h.animator s).change i Tween.ended) :
      ∀ j, (h.animator s').tween? j = if j ∈ [i] then ((h.animator s).tween? j).map Tween.ended
        else (h.animator s).tween? j := by
    intro j
    rw [hs', Animator.tween?_change]
    simp [eq_comm]
  refine Ends.get_bind ?_
  simp only [htw, hdone, Bool.false_eq_true, if_false]
  refine Ends.change_bind ?_
  generalize hs₁ : h.modify (fun a => a.change i fun tw => { tw with isDone := true })
    (h.write tw.object tw.slot tw.finish s) = s₁
  have hanimator : h.animator s₁ = (h.animator s).change i Tween.ended := by
    rw [← hs₁, hq.animator_modify, hq.animator_write]
    rfl
  have hlog : log s₁ = log s := by rw [← hs₁, hq.log_modify, hq.log_write]
  cases honDone : tw.onDone with
  | none =>
    refine Ends.pure ⟨by rw [hanimator]; rfl, hchange s₁ hanimator, ?_⟩
    simp [htw, hlog, Tween.notes, Tween.ended, honDone]
  | some k =>
    refine (hq.fire k s₁).mono fun _ s' hs' => ?_
    rw [hanimator] at hs'
    refine ⟨by rw [hs'.1]; rfl, hchange s' hs'.1, ?_⟩
    simp [htw, hs'.2, hlog, Tween.notes, Tween.ended, honDone]

theorem Changes.congr {s' : σ} {is : List Nat} {g : Tween ω τ κ α → Tween ω τ κ α}
    (hs' : h.Changes log note s f is s')
    (hfg : ∀ i ∈ is, ∀ tw, (h.animator s).tween? i = some tw → f tw = g tw) :
    h.Changes log note s g is s' := by
  refine ⟨hs'.running, fun j => ?_, ?_⟩
  · rw [hs'.tween?]
    split
    · next hj =>
      cases htw : (h.animator s).tween? j with
      | none => rfl
      | some tw => rw [Option.map_some, Option.map_some, hfg j hj tw htw]
    · rfl
  · rw [hs'.log]
    congr 1
    refine List.flatMap_congr fun tw htw => ?_
    obtain ⟨i, hi, htween⟩ := List.mem_filterMap.1 htw
    rw [hfg i hi tw htween]

/-- A tween that is left as it is, and runs on. -/
theorem Changes.keep (htw : (h.animator s).tween? i = some tw) (hdone : tw.isDone = false)
    (hf : f tw = tw) : h.Changes log note s f [i] s := by
  refine ⟨rfl, fun j => ?_, ?_⟩
  · by_cases hij : j = i
    · subst hij
      simp [htw, hf]
    · simp [hij]
  · simp [htw, hf, Tween.notes, hdone]

/-- All tweens that run, changed: what is left of them once those that are done are swept away. -/
theorem Changes.sweep {s' : σ} (ha : (h.animator s).Sound)
    (hs' : h.Changes log note s f (h.animator s).running s') :
    (h.animator s').sweep.Sound ∧ (h.animator s').sweep.unfinished =
      ((h.animator s).unfinished.map f).filter (fun tw => !tw.isDone) ∧
      log s' = log s ++ ((h.animator s).unfinished.map f).flatMap (Tween.notes note) := by
  have htween (i : Nat) (hi : i ∈ (h.animator s).running) :
      (h.animator s').sweep.tween? i = ((h.animator s).tween? i).map f := by
    show (h.animator s').tween? i = _
    rw [hs'.tween?, if_pos hi]
  have hrunning : (h.animator s').sweep.running =
      (h.animator s).running.filter fun i => !(h.animator s').sweep.isDone i := by
    show (h.animator s').running.filter _ = _
    rw [hs'.running]
    rfl
  have hmade (i : Nat) (hi : i ∈ (h.animator s).running) :
      ∃ tw, (h.animator s').sweep.tween? i = some (f tw) := by
    obtain ⟨tw, htw, -⟩ := ha.running i hi
    exact ⟨tw, by rw [htween i hi, htw, Option.map_some]⟩
  refine ⟨⟨?_, fun i hi => ?_⟩, ?_, ?_⟩
  · rw [hrunning]
    exact ha.nodup.sublist List.filter_sublist
  · rw [hrunning, List.mem_filter] at hi
    obtain ⟨tw, htw⟩ := hmade i hi.1
    refine ⟨f tw, htw, ?_⟩
    simpa [Animator.isDone, htw] using hi.2
  · rw [Animator.unfinished_eq_of_running hrunning, ha.unfinished_eq, List.map_filterMap,
      List.filter_filterMap]
    · exact List.filterMap_congr fun i hi => by rw [htween i hi]
    · intro i hi
      obtain ⟨tw, htw⟩ := hmade i hi
      rw [htw]
      rfl
  · rw [hs'.log, ha.unfinished_eq, List.flatMap_map]

/-- The look-through before a tween `new` begins brings every tween to its end that drives the
    same attribute, from its position on. -/
theorem supersede_ends [BEq ω] [BEq τ] (hq : h.Quiet log note) {new : Tween ω τ κ α}
    (hnew : (h.animator s).tween? i = some new) (ha : (h.animator s).Sound)
    (hi : i ∉ (h.animator s).running) {steps position : Nat}
    (hsteps : (h.animator s).running.length ≤ position + steps) :
    Ends (h.supersede i steps position) s fun _ s' =>
      h.Changes log note s (Tween.yieldTo new) ((h.animator s).running.drop position) s' := by
  -- The list and the tweens further on stay as they are, so the claim is made for those alone.
  obtain ⟨is, his⟩ : ∃ is, is = (h.animator s).running := ⟨_, rfl⟩
  obtain ⟨hnodup, hrun⟩ := ha
  rw [← his] at hnodup hi hsteps ⊢
  have hrun' : ∀ j ∈ is.drop position, ∃ tw, (h.animator s).tween? j = some tw ∧
      tw.isDone = false := fun j hj => hrun j (his ▸ List.mem_of_mem_drop hj)
  clear hrun
  induction steps generalizing s position with
  | zero =>
    rw [List.drop_eq_nil_of_le (by omega)]
    exact Ends.pure Changes.nil
  | succ steps ih =>
    refine Ends.get_bind ?_
    dsimp only
    rw [← his]
    cases hj : is[position]? with
    | none =>
      rw [List.drop_eq_nil_of_le (List.getElem?_eq_none_iff.1 hj)]
      exact Ends.pure Changes.nil
    | some j =>
      obtain ⟨hlt, hget⟩ := List.getElem?_eq_some_iff.1 hj
      have hdrop : is.drop position = j :: is.drop (position + 1) := by
        rw [List.drop_eq_getElem_cons hlt, hget]
      have hjnodup : (j :: is.drop (position + 1)).Nodup :=
        hdrop ▸ hnodup.sublist (List.drop_sublist _ _)
      have hjnotin := (List.nodup_cons.1 hjnodup).1
      rw [hdrop] at hrun' ⊢
      obtain ⟨other, hother, hdone⟩ := hrun' j List.mem_cons_self
      have hne : i ≠ j := by
        rintro rfl
        exact hi (List.mem_of_getElem? hj)
      have hrest (s' : σ) (hs' : h.Changes log note s (Tween.yieldTo new) [j] s') :
          Ends (h.supersede i steps (position + 1)) s' fun _ s'' =>
            h.Changes log note s (Tween.yieldTo new) (j :: is.drop (position + 1)) s'' := by
        have hnew' : (h.animator s').tween? i = some new := by
          rw [hs'.tween?, if_neg (by simpa using hne), hnew]
        refine (ih hnew' (by omega) (by rw [hs'.running, ← his]) fun k hk => ?_).mono
          fun _ s'' hs'' => hs'.cons hjnotin hs''
        have hkj : k ∉ [j] := by
          rw [List.mem_singleton]
          rintro rfl
          exact hjnotin hk
        rw [hs'.tween?, if_neg hkj]
        exact hrun' k (List.mem_cons_of_mem j hk)
      simp only [hnew, hother]
      split
      · next hsame =>
        refine (finish_ends hq hother hdone).then_bind fun _ s' hs' => hrest s' (hs'.congr ?_)
        intro k hk tw htw
        cases List.mem_singleton.1 hk
        rw [hother] at htw
        cases htw
        rw [Tween.yieldTo, if_pos hsame]
      · next hsame =>
        refine hrest s (Changes.keep hother hdone ?_)
        rw [Tween.yieldTo, if_neg hsame]

/-- A tween that begins brings those to their ends that drive the same attribute, and runs behind
    the rest. -/
theorem add_ends [BEq ω] [BEq τ] (hq : h.Quiet log note) {new : Tween ω τ κ α}
    (hnew : (h.animator s).tween? i = some new) (hdone : new.isDone = false)
    (ha : (h.animator s).Sound) (hi : i ∉ (h.animator s).running) :
    Ends (h.add i) s fun _ s' => (h.animator s').Sound ∧
      (h.animator s').unfinished =
        ((h.animator s).unfinished.map (Tween.yieldTo new)).filter (fun tw => !tw.isDone) ++
          [new] ∧
      log s' = log s ++
        ((h.animator s).unfinished.map (Tween.yieldTo new)).flatMap (Tween.notes note) := by
  refine Ends.get_bind ?_
  refine (supersede_ends hq hnew ha hi (by omega)).then_bind fun _ s' hs' => ?_
  rw [List.drop_zero] at hs'
  obtain ⟨hsound, hunfinished, hlog⟩ := hs'.sweep ha
  have hnew' : (h.animator s').sweep.tween? i = some new := by
    show (h.animator s').tween? i = _
    rw [hs'.tween?, if_neg hi, hnew]
  have hi' : i ∉ (h.animator s').sweep.running := by
    intro hmem
    refine hi ?_
    rw [← hs'.running]
    exact (List.mem_filter.1 hmem).1
  refine Ends.change ?_
  rw [hq.animator_modify, hq.log_modify]
  refine ⟨⟨?_, fun j hj => ?_⟩, ?_, hlog⟩
  · refine List.nodup_append.2 ⟨hsound.nodup, by simp, fun j hj k hk => ?_⟩
    rw [List.mem_singleton.1 hk]
    exact ne_of_mem_of_not_mem hj hi'
  · rcases List.mem_append.1 hj with hmem | hmem
    · exact hsound.running j hmem
    · cases List.mem_singleton.1 hmem
      exact ⟨new, hnew', hdone⟩
  · rw [← hunfinished, Animator.unfinished, List.filterMap_append]
    congr 1
    show [i].filterMap (fun j => ((h.animator s').sweep.tween? j).filter _) = _
    simp [hnew', hdone, Option.filter]

variable [Scalar α]

/-- A tween that runs for a time. -/
theorem advance_ends (hq : h.Quiet log note) (htw : (h.animator s).tween? i = some tw)
    (hdone : tw.isDone = false) (hmixes : tw.Mixes) (dt : α) :
    Ends (h.advance i dt) s fun _ s' => h.Changes log note s (Tween.after dt) [i] s' := by
  obtain ⟨tw', htw'⟩ : ∃ tw', tw' = { tw with elapsed := tw.elapsed + dt, isDone := false } :=
    ⟨_, rfl⟩
  have hmixes' : tw'.Mixes := by
    rw [htw']
    exact hmixes
  obtain ⟨value, hvalue⟩ := hmixes'.value?
  have hafter : tw.after dt = { tw' with isDone := tw'.isOver } := by
    rw [htw', Tween.after]
    simp only [← hdone]
  refine Ends.get_bind ?_
  simp only [htw, hdone, Bool.false_eq_true, if_false, ← htw']
  refine Ends.change_bind ?_
  simp only [hvalue]
  refine Ends.change_bind ?_
  generalize hs₁ : h.write tw.object tw.slot value (h.modify (fun a => a.change i fun _ => tw') s) =
    s₁
  have hanimator : h.animator s₁ = (h.animator s).change i fun _ => tw' := by
    rw [← hs₁, hq.animator_write, hq.animator_modify]
  have htween (j : Nat) : (h.animator s₁).tween? j =
      if i = j then some tw' else (h.animator s).tween? j := by
    rw [hanimator, Animator.tween?_change]
    split
    · next heq => simp [← heq, htw]
    · rfl
  have hlog : log s₁ = log s := by rw [← hs₁, hq.log_write, hq.log_modify]
  cases hover : tw'.isOver with
  | false =>
    simp only [Bool.false_eq_true, if_false]
    refine Ends.get_bind (Ends.pure ⟨by rw [hanimator]; rfl, fun j => ?_, ?_⟩)
    · rw [htween]
      by_cases hij : i = j
      · subst hij
        simp only [if_true, List.mem_singleton, htw, Option.map_some, hafter, hover]
        rw [htw']
      · have hji : j ≠ i := fun heq => hij heq.symm
        simp [hij, hji]
    · simp [htw, hlog, Tween.notes, hafter, hover]
  | true =>
    simp only [if_true]
    have hdone' : tw'.isDone = false := by rw [htw']
    refine (finish_ends hq (by simp [htween]) hdone').then_bind fun _ s' hs' => ?_
    refine Ends.get_bind (Ends.pure ⟨?_, fun j => ?_, ?_⟩)
    · rw [hs'.running, hanimator]
      rfl
    · rw [hs'.tween?, htween]
      by_cases hij : i = j
      · subst hij
        simp [htw, hafter, hover, Tween.ended]
      · have hji : j ≠ i := fun heq => hij heq.symm
        simp [hij, hji]
    · rw [hs'.log, hlog]
      simp [htween, htw, Tween.notes, hafter, hover, Tween.ended]

/-- Distinct tweens that all run for a time. -/
theorem forM_advance_ends (hq : h.Quiet log note) (dt : α) {is : List Nat} (his : is.Nodup)
    (hrun : ∀ i ∈ is, ∃ tw, (h.animator s).tween? i = some tw ∧ tw.isDone = false ∧ tw.Mixes) :
    Ends (is.forM fun i => discard (h.advance i dt)) s fun _ s' =>
      h.Changes log note s (Tween.after dt) is s' := by
  induction is generalizing s with
  | nil => exact Ends.pure Changes.nil
  | cons i rest ih =>
    obtain ⟨hi, hrest⟩ := List.nodup_cons.1 his
    obtain ⟨tw, htw, hdone, hmixes⟩ := hrun i List.mem_cons_self
    have hfirst : Ends (discard (h.advance i dt)) s fun _ s' =>
        h.Changes log note s (Tween.after dt) [i] s' :=
      Ends.discard (advance_ends hq htw hdone hmixes dt)
    refine hfirst.then_bind fun _ s' hs' => ?_
    refine (ih hrest fun j hj => ?_).mono fun _ s'' hs'' => hs'.cons hi hs''
    have hne : j ∉ [i] := by
      rw [List.mem_singleton]
      rintro rfl
      exact hi hj
    rw [hs'.tween?, if_neg hne]
    exact hrun j (List.mem_cons_of_mem i hj)

/-- Updating runs every unfinished tween for a time and notes those that are done then. -/
theorem update_ends (hq : h.Quiet log note) (ha : (h.animator s).Sound)
    (hmixes : ∀ tw ∈ (h.animator s).unfinished, tw.Mixes) (dt : α) :
    Ends (h.update dt) s fun _ s' => (h.animator s').Sound ∧
      (h.animator s').unfinished =
        ((h.animator s).unfinished.map (Tween.after dt)).filter (fun tw => !tw.isDone) ∧
      log s' = log s ++
        ((h.animator s).unfinished.map (Tween.after dt)).flatMap (Tween.notes note) := by
  refine Ends.get_bind ?_
  have hrun : ∀ i ∈ (h.animator s).running, ∃ tw, (h.animator s).tween? i = some tw ∧
      tw.isDone = false ∧ tw.Mixes := by
    intro i hi
    obtain ⟨tw, htw, hdone⟩ := ha.running i hi
    refine ⟨tw, htw, hdone, hmixes tw ?_⟩
    rw [ha.unfinished_eq]
    exact List.mem_filterMap.2 ⟨i, hi, htw⟩
  refine Ends.then_bind (forM_advance_ends hq dt ha.nodup hrun) fun _ s' hs' => ?_
  refine Ends.change ?_
  rw [hq.animator_modify, hq.log_modify]
  exact hs'.sweep ha

end Host

end VisualNovel

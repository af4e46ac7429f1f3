import VisualNovel.Proofs.Cast.Filling
import VisualNovel.Proofs.Stage.FadeOuts

/-!
What a stage keeps, whatever happens on it. A property of stages, together with one of the tweens
that run on them, is an invariant if each kind of change keeps it; then commands keep it, whether
they can be carried out or not, and so do the passing of time and the presses of the player.
-/

namespace VisualNovel

open Act

/-! ### The owner of an animator -/

/-- A further tween has the property of the others. -/
theorem Animator.forall_make {ω τ κ α : Type} {P : Tween ω τ κ α → Prop} {a : Animator ω τ κ α}
    (h : ∀ i tw, a.tween? i = some tw → P tw) {new : Tween ω τ κ α} (hnew : P new) (i : Nat)
    (tw : Tween ω τ κ α) (htw : (a.make new).tween? i = some tw) : P tw := by
  rw [tween?_make] at htw
  split at htw
  · cases htw
    exact hnew
  · exact h i tw htw

namespace Host

variable {σ ε ω τ κ α : Type}

/-- A property of the owner holds, and one of its tweens holds of each that was ever made. -/
structure Tamed (h : Host σ ε ω τ κ α) (I : σ → Prop) (Tame : Tween ω τ κ α → Prop) (s : σ) :
    Prop where
  owner : I s
  tweens : ∀ i tw, (h.animator s).tween? i = some tw → Tame tw

/-- What tweens and their callbacks do to the owner of the animator keeps its property, as long as
    the tweens have theirs. -/
structure Respects [Scalar α] (h : Host σ ε ω τ κ α) (I : σ → Prop)
    (Tame : Tween ω τ κ α → Prop) : Prop where
  animator_set : ∀ a s, h.animator (h.setAnimator a s) = a
  animator_write : ∀ object slot value s, h.animator (h.write object slot value s) = h.animator s
  setAnimator : ∀ a s, I s → I (h.setAnimator a s)
  value : ∀ tw v s, Tame tw → tw.value? = some v → I s → I (h.write tw.object tw.slot v s)
  finish : ∀ tw s, Tame tw → I s → I (h.write tw.object tw.slot tw.finish s)
  later : ∀ tw elapsed isDone, Tame tw → Tame { tw with elapsed, isDone }
  fire : ∀ k, Keeps (h.Tamed I Tame) (fun _ => True) (h.fire k)

namespace Respects

variable [Scalar α] {h : Host σ ε ω τ κ α} {I : σ → Prop} {Tame : Tween ω τ κ α → Prop} {s : σ}

/-- The animator is changed, and with it maybe some tweens. -/
theorem modify (hI : h.Respects I Tame) (hs : h.Tamed I Tame s)
    {f : Animator ω τ κ α → Animator ω τ κ α}
    (hf : ∀ i tw, (f (h.animator s)).tween? i = some tw → Tame tw) :
    h.Tamed I Tame (h.modify f s) := by
  refine ⟨hI.setAnimator _ _ hs.owner, fun i tw htw => hf i tw ?_⟩
  rwa [Host.modify, hI.animator_set] at htw

/-- One tween is changed. -/
theorem change (hI : h.Respects I Tame) (hs : h.Tamed I Tame s) {i : Nat}
    {f : Tween ω τ κ α → Tween ω τ κ α} (hf : ∀ tw, Tame tw → Tame (f tw)) :
    h.Tamed I Tame (h.modify (·.change i f) s) := by
  refine hI.modify hs fun j tw htw => ?_
  rw [Animator.tween?_change] at htw
  split at htw
  · obtain ⟨old, hold, rfl⟩ := Option.map_eq_some_iff.1 htw
    exact hf old (hs.tweens j old hold)
  · exact hs.tweens j tw htw

theorem write (hI : h.Respects I Tame) (hs : h.Tamed I Tame s) {object : ω} {slot : τ}
    {value : TweenValue α} (hvalue : I s → I (h.write object slot value s)) :
    h.Tamed I Tame (h.write object slot value s) := by
  refine ⟨hvalue hs.owner, ?_⟩
  rw [hI.animator_write]
  exact hs.tweens

theorem finish_keeps (hI : h.Respects I Tame) (i : Nat) :
    Keeps (h.Tamed I Tame) (fun _ => True) (h.finish i) := by
  refine Keeps.get_bind fun s hs => ?_
  split
  · exact Keeps.pure _
  next tw htw =>
  split
  · exact Keeps.pure _
  · refine Keeps.bind (Keeps.change fun s' hs' => ?_) fun _ => ?_
    · refine hI.change (hI.write hs' (hI.finish tw s' (hs.tweens i tw htw))) fun tw htw => ?_
      exact hI.later tw tw.elapsed true htw
    split
    · exact hI.fire _
    · exact Keeps.pure _

theorem supersede_keeps [BEq ω] [BEq τ] (hI : h.Respects I Tame) (i steps position : Nat) :
    Keeps (h.Tamed I Tame) (fun _ => True) (h.supersede i steps position) := by
  induction steps generalizing position with
  | zero => exact Keeps.pure _
  | succ steps ih =>
    refine Keeps.get_bind fun s _ => ?_
    dsimp only
    split
    · exact Keeps.pure _
    split
    · split
      · exact Keeps.bind (hI.finish_keeps _) fun _ => ih _
      · exact ih _
    · exact ih _

theorem add_keeps [BEq ω] [BEq τ] (hI : h.Respects I Tame) (i : Nat) :
    Keeps (h.Tamed I Tame) (fun _ => True) (h.add i) :=
  Keeps.get_bind fun _ _ => Keeps.bind (hI.supersede_keeps _ _ _) fun _ =>
    Keeps.change fun _ hs => hI.modify hs hs.tweens

theorem cancel_keeps [BEq ω] (hI : h.Respects I Tame) (object : ω) :
    Keeps (h.Tamed I Tame) (fun _ => True) (h.cancel object) :=
  Keeps.change fun _ hs => hI.modify hs hs.tweens

theorem advance_keeps (hI : h.Respects I Tame) (i : Nat) (dt : α) :
    Keeps (h.Tamed I Tame) (fun _ => True) (h.advance i dt) := by
  refine Keeps.get_bind fun s hs => ?_
  split
  · exact Keeps.pure _
  next tw htw =>
  have htame : Tame { tw with elapsed := tw.elapsed + dt } :=
    hI.later tw _ tw.isDone (hs.tweens i tw htw)
  split
  · exact Keeps.pure _
  · refine Keeps.bind (Keeps.change fun s' hs' => hI.change hs' fun _ _ => htame) fun _ => ?_
    split
    · exact Keeps.throw trivial
    next value hvalue =>
    refine Keeps.bind (Keeps.change fun s' hs' => ?_) fun _ => ?_
    · exact hI.write hs' (hI.value _ value s' htame hvalue)
    split
    · exact Keeps.bind (hI.finish_keeps i) fun _ => Keeps.get_bind fun _ _ => Keeps.pure _
    · exact Keeps.get_bind fun _ _ => Keeps.pure _

theorem update_keeps (hI : h.Respects I Tame) (dt : α) :
    Keeps (h.Tamed I Tame) (fun _ => True) (h.update dt) :=
  Keeps.get_bind fun _ _ =>
    Keeps.bind (Keeps.forM fun i _ => (hI.advance_keeps i dt).discard) fun _ =>
      Keeps.change fun _ hs => hI.modify hs hs.tweens

end Respects

end Host

/-! ### Stages -/

variable {α : Type} [Scalar α]

/-- A tween on a stage. -/
abbrev StageTween (α : Type) := Tween Nat Slot Acknowledgement α

namespace Stage

/-- What everything that can happen on a stage with a given cast keeps: a property of the stage, and
    one of the tweens on it. Of the animations nothing matters but their sheets. -/
structure Invariant (cast : Cast) (I : Stage α → Prop) (Tame : StageTween α → Prop) : Prop where
  cast_eq : ∀ s, I s → s.cast = cast
  of_sheets : ∀ s s' : Stage α, I s → s'.cast = s.cast → s'.actors = s.actors →
    (∀ name a, (name, a) ∈ s'.animations → ∃ old, (name, old) ∈ s.animations ∧ a.sheet = old.sheet) →
    I s'
  appear : ∀ s name (a : Animated α), I s → cast.animations.get? name = some a.sheet →
    I { s with animations := s.animations.put name a }
  enter : ∀ s (a : Actor α) (place : Position), I s →
    cast.characters.get? a.character.name = some a.character → a.x = place.percent →
    a.outfit = a.character.outfit → a.sprite? ≠ none →
    I { s with actors := s.actors.put a.character.name a }
  leave : ∀ s name, I s → I { s with actors := s.actors.erase name }
  look : ∀ s name facing, I s →
    I { s with actors := s.actors.change name fun a => { a with facing } }
  feel : ∀ s s' name (a : Actor α) emotion, I s → s.actors.get? name = some a →
    a.character.hasEmotion (some emotion) (some a.outfit) → I s' →
    I { s' with actors := s'.actors.change name fun a => { a with emotion } }
  value : ∀ tw v s, Tame tw → tw.value? = some v → I s → I (s.write tw.object tw.slot v)
  finish : ∀ tw s, Tame tw → I s → I (s.write tw.object tw.slot tw.finish)
  later : ∀ tw elapsed isDone, Tame tw → Tame { tw with elapsed, isDone }
  elsewhere : ∀ tw : StageTween α, tw.slot ≠ .x → Tame tw
  move : ∀ s name (a : Actor α) (place : Position) (tw : StageTween α), I s →
    s.actors.get? name = some a → tw.slot = .x → tw.start = .number a.x →
    tw.finish = .number place.percent → tw.ease = .inOutSine → Tame tw

/-- A stage of an invariant, with its tweens. -/
structure Holds (I : Stage α → Prop) (Tame : StageTween α → Prop) (s : Stage α) : Prop where
  stage : I s
  tweens : ∀ i tw, s.animator.tween? i = some tw → Tame tw

namespace Invariant

variable {cast : Cast} {I : Stage α → Prop} {Tame : StageTween α → Prop} {s s' : Stage α}

/-- Nothing but the cast and those who stand on stage matters. -/
theorem of_eq (hI : Invariant cast I Tame) (hs : I s) (hcast : s'.cast = s.cast)
    (hactors : s'.actors = s.actors) (hanimations : s'.animations = s.animations) : I s' :=
  hI.of_sheets s s' hs hcast hactors fun _ a ha => ⟨a, hanimations ▸ ha, rfl⟩

theorem remove (hI : Invariant cast I Tame) (hs : I s) (leaving : Leaving) :
    I (s.remove leaving) := by
  cases leaving with
  | actor name => exact hI.leave s name hs
  | animation name =>
    exact hI.of_sheets s _ hs rfl rfl fun _ a ha => ⟨a, List.mem_of_mem_filter ha, rfl⟩

end Invariant

end Stage

namespace StageAct

variable {cast : Cast} {I : Stage α → Prop} {Tame : StageTween α → Prop} {c : Command}

/-- Whatever is computed, the stage is one of the invariant before and after. -/
abbrev KeepsStage (I : Stage α → Prop) (Tame : StageTween α → Prop) {β : Type}
    (a : StageAct α β) : Prop :=
  Keeps (host.Tamed (fun run => I run.stage) Tame) (fun _ => True) a

section Changes

variable {f : Stage α → Stage α}

omit [Scalar α] in
/-- A change that lets the tweens alone. -/
theorem change_keeps (hf : ∀ s, I s → I (f s)) (hanimator : ∀ s, (f s).animator = s.animator) :
    KeepsStage I Tame (change f) := by
  refine Keeps.change fun run h => ⟨hf run.stage h.owner, ?_⟩
  show ∀ i tw, (f run.stage).animator.tween? i = some tw → Tame tw
  rw [hanimator]
  exact h.tweens

/-- A change that has nothing to do with those who stand on stage. -/
theorem change_keeps_of_eq (hI : Stage.Invariant cast I Tame) (hcast : ∀ s, (f s).cast = s.cast)
    (hactors : ∀ s, (f s).actors = s.actors) (hanimations : ∀ s, (f s).animations = s.animations)
    (hanimator : ∀ s, (f s).animator = s.animator) : KeepsStage I Tame (change f) :=
  change_keeps (fun s hs => hI.of_eq hs (hcast s) (hactors s) (hanimations s)) hanimator

omit [Scalar α] in
theorem signal_keeps (x : Signal) : KeepsStage I Tame (signal x : StageAct α Unit) :=
  Keeps.change fun _ h => ⟨h.owner, h.tweens⟩

omit [Scalar α] in
/-- A command that lacks a parameter fails before it does anything else. -/
theorem lift_bind_keeps {β γ : Type} {r : Except ParamError β} {f : β → StageAct α γ}
    (hf : ∀ x, KeepsStage I Tame (f x)) : KeepsStage I Tame (liftM r >>= f) :=
  Keeps.lift_bind (fun _ _ => trivial) hf

end Changes

variable (hI : Stage.Invariant cast I Tame)

include hI

theorem fresh_keeps : KeepsStage I Tame (fresh : StageAct α Nat) :=
  Keeps.view_bind fun _ _ => Keeps.bind
    (change_keeps_of_eq hI (fun _ => rfl) (fun _ => rfl) (fun _ => rfl) fun _ => rfl) fun _ =>
      Keeps.pure _

theorem host_respects : (host (α := α)).Respects (fun run => I run.stage) Tame where
  animator_set _ _ := rfl
  animator_write _ _ _ _ := rfl
  setAnimator _ _ hs := hI.of_eq hs rfl rfl rfl
  value tw v run htw hv hs := hI.value tw v run.stage htw hv hs
  finish tw run htw hs := hI.finish tw run.stage htw hs
  later := hI.later
  fire ack := by
    obtain ⟨leaving, command⟩ := ack
    cases leaving with
    | some leaving =>
      refine Keeps.bind (change_keeps (fun s hs => hI.remove hs leaving) fun s => ?_) fun _ =>
        signal_keeps _
      cases leaving <;> rfl
    | none => exact signal_keeps _

/-- An effect begins with a tween that has the property. -/
theorem tween_keeps {number : Nat} {slot : Slot} {start finish : TweenValue α}
    {duration : α} {ease : Ease} {ack : Acknowledgement}
    (htame : Tame { object := number, slot, start, finish, duration, ease
                    elapsed := Scalar.zero, onDone := some ack }) :
    KeepsStage I Tame (tween number slot start finish duration ease ack) := by
  refine Keeps.view_bind fun _ _ => Keeps.bind (Keeps.change fun run h => ?_) fun _ =>
    (host_respects hI).add_keeps _
  exact ⟨hI.of_eq h.owner rfl rfl rfl, Animator.forall_make h.tweens htame⟩

/-! ### Commands -/

/-- An actor comes on stage with a sprite or not at all. -/
theorem enter_keeps {character : Character}
    (hcharacter : cast.characters.get? character.name = some character) (alpha : α) :
    KeepsStage I Tame (enter c character alpha) := by
  unfold enter
  dsimp only
  split
  · exact Keeps.bind (signal_keeps _) fun _ => Keeps.pure _
  next hemotion =>
    have hsprite : character.sprite? (some (Character.orDefault c.params.emotion.join
        character.emotion)) none ≠ none := by simpa [Character.hasEmotion] using hemotion
    have hrest : KeepsStage I Tame (do
        let place ← startPlace c.params
        let number ← fresh
        let actor : Actor α :=
          { number, character, alpha
            x := place.percent
            facing := c.params.facing.getD .right
            emotion := Character.orDefault c.params.emotion.join character.emotion
            outfit := character.outfit }
        change fun s => { s with actors := s.actors.put character.name actor }
        return some number : StageAct α (Option Nat)) := by
      refine lift_bind_keeps fun place => Keeps.bind (fresh_keeps hI) fun number => ?_
      refine Keeps.bind (change_keeps (fun s hs => ?_) fun _ => rfl) fun _ => Keeps.pure _
      refine hI.enter s { number, character, alpha
                          x := place.percent
                          facing := c.params.facing.getD .right
                          emotion := _
                          outfit := character.outfit } place hs hcharacter rfl rfl ?_
      simpa [Actor.sprite?, Character.sprite?, Character.orDefault] using hsprite
    refine Keeps.view_bind fun _ _ => ?_
    split
    · exact Keeps.bind ((host_respects hI).cancel_keeps _) fun _ => hrest
    · exact hrest

/-- In a cast that was filled by adding, the character that is called for has the name it is found
    under. -/
theorem calledCharacter_bind_keeps (hcast : cast.Filled) {β : Type}
    {f : Option Character → StageAct α β}
    (hnone : KeepsStage I Tame (f none))
    (hsome : ∀ character, cast.characters.get? character.name = some character →
      KeepsStage I Tame (f (some character))) :
    KeepsStage I Tame (calledCharacter c >>= f) := by
  refine Keeps.of_lands fun run h => ?_
  refine Lands.bind_of_ends calledCharacter_ends_get? fun character? run' hrun' => ?_
  obtain ⟨hcharacter, hstage, -⟩ := hrun'
  have h' : host.Tamed (fun run => I run.stage) Tame run' := by
    refine ⟨?_, ?_⟩
    · rw [hstage]
      exact h.owner
    · show ∀ i tw, run'.stage.animator.tween? i = some tw → Tame tw
      rw [hstage]
      exact h.tweens
  cases character? with
  | none => exact hnone.lands h'
  | some character =>
    rw [hI.cast_eq _ h.owner] at hcharacter
    refine (hsome character ?_).lands h'
    rw [hcast.name_eq hcharacter.symm]
    exact hcharacter.symm

/-- A command to an actor who is on stage. -/
theorem direct_keeps {s : Stage α} (hs : I s) {name : String} {actor : Actor α}
    (hactor : s.actors.get? name = some actor) : KeepsStage I Tame (direct c name actor) := by
  unfold direct
  split
  · refine Keeps.bind ((host_respects hI).cancel_keeps _) fun _ => ?_
    exact change_keeps (fun s hs => hI.leave s name hs) fun _ => rfl
  split
  · exact Keeps.view_bind fun _ _ => tween_keeps hI (hI.elsewhere _ fun h => by cases h)
  split
  · refine lift_bind_keeps fun place => Keeps.view_bind fun _ _ => tween_keeps hI ?_
    exact hI.move s name actor place _ hs hactor rfl rfl rfl rfl
  split
  · refine lift_bind_keeps fun facing => ?_
    exact change_keeps (fun s hs => hI.look s name facing hs) fun _ => rfl
  · exact signal_keeps _

theorem onActor_keeps (hcast : cast.Filled) : KeepsStage I Tame (onActor (α := α) c) := by
  unfold onActor
  dsimp only
  split
  · refine calledCharacter_bind_keeps hI hcast (Keeps.pure _) fun character hcharacter => ?_
    exact (enter_keeps hI hcharacter _).discard
  refine lift_bind_keeps fun fading => ?_
  split
  · refine calledCharacter_bind_keeps hI hcast (Keeps.pure _) fun character hcharacter => ?_
    refine Keeps.bind (enter_keeps hI hcharacter _) fun number? => ?_
    cases number? with
    | none => exact Keeps.pure _
    | some number =>
      exact Keeps.view_bind fun _ _ => tween_keeps hI (hI.elsewhere _ fun h => by cases h)
  · refine Keeps.view_bind fun run h => ?_
    split
    · exact signal_keeps _
    · next actor hactor => exact direct_keeps hI h.owner hactor

theorem stageAnimation_keeps {name : String} {sheet : SpriteSheet}
    (hsheet : cast.animations.get? name = some sheet) (alpha : α) :
    KeepsStage I Tame (stageAnimation c name sheet alpha) := by
  have hput (position : List α) (scale : α) (layer : Int) : KeepsStage I Tame (do
      let number ← fresh
      let animated : Animated α :=
        { number, sheet, position, scale, layer, alpha, elapsed := Scalar.zero }
      change fun s => { s with animations := s.animations.put name animated }
      return number : StageAct α Nat) := by
    refine Keeps.bind (fresh_keeps hI) fun number => ?_
    refine Keeps.bind (change_keeps (fun s hs => ?_) fun _ => rfl) fun _ => Keeps.pure _
    exact hI.appear s name _ hs hsheet
  refine Keeps.view_bind fun _ _ => ?_
  dsimp only
  split
  · exact lift_bind_keeps fun _ => hput _ _ _
  · exact Keeps.bind (Keeps.pure _) fun _ => hput _ _ _

/-- A command to an animation that is on stage. -/
theorem directAnimation_keeps (name : String) (a : Animated α) :
    KeepsStage I Tame (directAnimation c name a) := by
  unfold directAnimation
  split
  · exact Keeps.view_bind fun _ _ => tween_keeps hI (hI.elsewhere _ fun h => by cases h)
  split
  · exact lift_bind_keeps fun _ => lift_bind_keeps fun _ =>
      Keeps.view_bind fun _ _ => tween_keeps hI (hI.elsewhere _ fun h => by cases h)
  split
  · refine lift_bind_keeps fun facing => change_keeps (fun s hs => ?_) fun _ => rfl
    refine hI.of_sheets s _ hs rfl rfl fun name' a' ha' => ?_
    obtain ⟨old, hold, rfl | ⟨-, rfl⟩⟩ :=
      Table.exists_of_mem_change (t := s.animations) (f := fun a => { a with facing }) ha'
    · exact ⟨a', hold, rfl⟩
    · exact ⟨old, hold, rfl⟩
  · exact signal_keeps _

theorem onAnimation_keeps : KeepsStage I Tame (onAnimation (α := α) c) := by
  unfold onAnimation
  dsimp only
  refine lift_bind_keeps fun fading => ?_
  split
  · refine Keeps.view_bind fun run h => ?_
    split
    · exact signal_keeps _
    · next sheet hsheet =>
      rw [hI.cast_eq _ h.owner] at hsheet
      refine Keeps.bind (stageAnimation_keeps hI hsheet _) fun number => ?_
      split
      · exact Keeps.view_bind fun _ _ => tween_keeps hI (hI.elsewhere _ fun h => by cases h)
      · exact Keeps.pure _
  · refine Keeps.view_bind fun _ _ => ?_
    split
    · exact signal_keeps _
    · exact directAnimation_keeps hI _ _

/-- An emotion is changed to one that has a sprite or not at all. -/
theorem changeEmotion_keeps (emotion : String) :
    KeepsStage I Tame (changeEmotion (α := α) c emotion) := by
  refine Keeps.view_bind fun run h => ?_
  split
  · exact signal_keeps _
  · next actor hactor =>
    split
    · next hemotion =>
      refine change_keeps (fun s hs => ?_) fun _ => rfl
      exact hI.feel run.stage s _ actor emotion h.owner hactor hemotion hs
    · exact signal_keeps _

theorem onDialogue_keeps : KeepsStage I Tame (onDialogue (α := α) c) := by
  have hrest (speaker : Option String) : KeepsStage I Tame (do
      let narrating ← need "narrator" c.params.narrator
      change fun s => { s with narrating }
      let text ← need "text" c.params.text
      change fun s => { s with box := s.box.show speaker text } : StageAct α Unit) := by
    refine lift_bind_keeps fun narrating => ?_
    refine Keeps.bind (change_keeps_of_eq hI (fun _ => rfl) (fun _ => rfl) (fun _ => rfl)
      fun _ => rfl) fun _ => lift_bind_keeps fun text => ?_
    exact change_keeps_of_eq hI (fun _ => rfl) (fun _ => rfl) (fun _ => rfl) fun _ => rfl
  refine lift_bind_keeps fun speaker => ?_
  split
  · exact Keeps.bind (changeEmotion_keeps hI _) fun _ => hrest _
  · exact hrest _

/-- Whatever the command, and whether it can be carried out or not. -/
theorem handle_keeps (hcast : cast.Filled) (c : Command) :
    KeepsStage I Tame (handle (α := α) c) := by
  unfold handle
  split
  · exact onActor_keeps hI hcast
  · exact onAnimation_keeps hI
  · exact lift_bind_keeps fun _ =>
      change_keeps_of_eq hI (fun _ => rfl) (fun _ => rfl) (fun _ => rfl) fun _ => rfl
  · exact lift_bind_keeps fun _ => lift_bind_keeps fun _ =>
      change_keeps_of_eq hI (fun _ => rfl) (fun _ => rfl) (fun _ => rfl) fun _ => rfl
  · exact onDialogue_keeps hI
  · exact lift_bind_keeps fun _ =>
      change_keeps_of_eq hI (fun _ => rfl) (fun _ => rfl) (fun _ => rfl) fun _ => rfl
  · exact lift_bind_keeps fun _ =>
      change_keeps_of_eq hI (fun _ => rfl) (fun _ => rfl) (fun _ => rfl) fun _ => rfl

theorem update_keeps (dt : α) : KeepsStage I Tame (update dt) := by
  refine Keeps.bind ((host_respects hI).update_keeps dt) fun _ => ?_
  refine change_keeps (fun s hs => hI.of_sheets s _ hs rfl rfl fun name a ha => ?_) fun _ => rfl
  obtain ⟨⟨name', old⟩, hold, heq⟩ := List.mem_map.1 ha
  cases heq
  exact ⟨old, hold, rfl⟩

theorem deed_keeps (hcast : cast.Filled) (deed : Deed α) : KeepsStage I Tame deed.work := by
  cases deed with
  | command c => exact handle_keeps hI hcast c
  | time dt => exact update_keeps hI dt
  | press awaiting =>
    refine change_keeps (fun s hs => ?_) fun s => ?_
    · obtain ⟨box, hbox⟩ := s.exists_press_eq awaiting
      rw [hbox]
      exact hI.of_eq hs rfl rfl rfl
    · obtain ⟨box, hbox⟩ := s.exists_press_eq awaiting
      rw [hbox]

end StageAct

/-- However a stage lives on, it is one of the invariant. -/
theorem Stage.Invariant.after {cast : Cast} {I : Stage α → Prop} {Tame : StageTween α → Prop}
    (hI : Invariant cast I Tame) (hcast : cast.Filled) {s : Stage α} (hs : Holds I Tame s)
    (deeds : List (Deed α)) : Holds I Tame (s.after deeds) := by
  induction deeds generalizing s with
  | nil => exact hs
  | cons deed rest ih =>
    have hkept := (StageAct.deed_keeps hI hcast deed { stage := s } ⟨hs.stage, hs.tweens⟩).1
    exact ih ⟨hkept.owner, hkept.tweens⟩

end VisualNovel

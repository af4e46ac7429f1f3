import VisualNovel.Proofs.Stage.Keeping

/-!
Whoever stands on stage can be drawn. An actor stands under the name of its character, wears the
outfit that the character wears by default, and shows an emotion for which that outfit has a sprite.
A command that would take the sprite from an actor, or bring one on stage without, is reported and
leaves the actors as they are.
-/

namespace VisualNovel

open Act

/-! ### Actors -/

variable {α : Type} {cast : Cast}

/-- An actor that stands on stage under a name is the one that the cast has under it, in its default
    outfit, and can be drawn. -/
structure Actor.Dressed (cast : Cast) (name : String) (a : Actor α) : Prop where
  known : cast.characters.get? name = some a.character
  outfit : a.outfit = a.character.outfit
  sprite : a.sprite? ≠ none

theorem Character.sprite?_default (c : Character) (emotion : Option String) :
    c.sprite? emotion (some c.outfit) = c.sprite? emotion none := by
  simp [sprite?, orDefault]

theorem Actor.Dressed.write {name : String} {a : Actor α} (h : a.Dressed cast name) (slot : Slot)
    (value : TweenValue α) : (a.write slot value).Dressed cast name := by
  unfold Actor.write
  split
  · exact ⟨h.known, h.outfit, h.sprite⟩
  · exact ⟨h.known, h.outfit, h.sprite⟩
  · exact h

/-- A stage with a given cast on which every actor can be drawn. -/
structure Stage.Dressed (cast : Cast) (s : Stage α) : Prop where
  cast_eq : s.cast = cast
  actors : ∀ name a, (name, a) ∈ s.actors → a.Dressed cast name

namespace Stage.Dressed

variable {s : Stage α}

theorem write [Scalar α] (h : s.Dressed cast) (number : Nat) (slot : Slot)
    (value : TweenValue α) : (s.write number slot value).Dressed cast := by
  refine ⟨h.cast_eq, fun name a ha => ?_⟩
  obtain ⟨⟨name', old⟩, hmem, heq⟩ := List.mem_map.1 ha
  cases heq
  have hold := h.actors name old hmem
  split
  · exact hold.write slot value
  · exact hold

/-- An actor comes on stage. -/
theorem put (h : s.Dressed cast) {name : String} {a : Actor α} (ha : a.Dressed cast name) :
    Stage.Dressed cast { s with actors := s.actors.put name a } := by
  refine ⟨h.cast_eq, fun name' a' hmem => ?_⟩
  rcases Table.eq_or_mem_of_mem_put hmem with heq | hold
  · cases heq
    exact ha
  · exact h.actors name' a' hold

/-- An actor on stage is changed. -/
theorem change (h : s.Dressed cast) {name : String} {f : Actor α → Actor α}
    (hf : ∀ a : Actor α, a.Dressed cast name → (f a).Dressed cast name) :
    Stage.Dressed cast { s with actors := s.actors.change name f } := by
  refine ⟨h.cast_eq, fun name' a' hmem => ?_⟩
  obtain ⟨old, hold, rfl | ⟨rfl, rfl⟩⟩ := Table.exists_of_mem_change hmem
  · exact h.actors name' a' hold
  · exact hf old (h.actors name' old hold)

/-- An actor on stage changes its emotion to one that has a sprite. Whoever stands under the name
    when the emotion is changed is the same character. -/
theorem feel (h : s.Dressed cast) {before : Stage α} (hbefore : before.Dressed cast)
    {name emotion : String} {a : Actor α} (ha : before.actors.get? name = some a)
    (hemotion : a.character.hasEmotion (some emotion) (some a.outfit)) :
    Stage.Dressed cast { s with actors := s.actors.change name fun a => { a with emotion } } := by
  have hlooked := hbefore.actors name a (Table.mem_of_get? ha)
  refine h.change fun a' ha' => ⟨ha'.known, ha'.outfit, ?_⟩
  have hsame : a'.character = a.character :=
    Option.some_inj.1 (ha'.known.symm.trans hlooked.known)
  have hsprite : (a.character.sprite? (some emotion) (some a.outfit)).isSome := hemotion
  unfold Actor.sprite?
  rw [hsame, ha'.outfit, hsame, ← hlooked.outfit]
  exact Option.isSome_iff_ne_none.1 hsprite

end Stage.Dressed

/-- That every actor can be drawn is kept by whatever happens, without regard to the tweens. -/
theorem Stage.dressed_invariant [Scalar α] :
    Invariant cast (Stage.Dressed cast (α := α)) fun _ => True where
  cast_eq _ h := h.cast_eq
  of_sheets _ _ h hcast hactors _ := ⟨hcast.trans h.cast_eq, hactors ▸ h.actors⟩
  appear _ _ _ h _ := ⟨h.cast_eq, h.actors⟩
  enter _ _ _ h hknown _ houtfit hsprite := h.put ⟨hknown, houtfit, hsprite⟩
  leave _ _ h := ⟨h.cast_eq, fun name a ha => h.actors name a (List.mem_of_mem_filter ha)⟩
  look _ _ _ h := h.change fun _ ha => ⟨ha.known, ha.outfit, ha.sprite⟩
  feel _ _ _ _ _ hbefore ha hemotion h := h.feel hbefore ha hemotion
  value _ _ _ _ _ h := h.write _ _ _
  finish _ _ _ h := h.write _ _ _
  later _ _ _ _ := trivial
  elsewhere _ _ := trivial
  move _ _ _ _ _ _ _ _ _ _ _ := trivial

/-- However a stage lives on, every actor on it can be drawn. -/
theorem Stage.Dressed.after [Scalar α] (hcast : cast.Filled) {s : Stage α} (h : s.Dressed cast)
    (deeds : List (Deed α)) : (s.after deeds).Dressed cast :=
  (dressed_invariant.after hcast ⟨h, fun _ _ _ => trivial⟩ deeds).stage

/-! ### Refusals -/

/-- A command that would leave an actor without a sprite, and the emotion for which there is none:
    it brings an actor on stage, or says a line with an emotion for an actor on stage. -/
inductive Command.Bares (s : Stage α) (c : Command) : String → Prop where
  | entering {character : Character} (hsubsystem : c.subsystem = .actor)
    (hverb : c.verb = "appear" ∨ c.verb = "fade" ∧ c.params.direction = some .fadeIn)
    (hcharacter : s.cast.characters.get? (c.target.getD "") = some character)
    (hbare : character.sprite? (some (Character.orDefault c.params.emotion.join character.emotion))
      (some character.outfit) = none) :
    Bares s c (Character.orDefault c.params.emotion.join character.emotion)
  | speaking {emotion : String} {a : Actor α} (hsubsystem : c.subsystem = .dialogue)
    (hemotion : c.params.emotion.join = some emotion)
    (hactor : s.actors.get? (c.target.getD "") = some a)
    (hbare : Actor.sprite? { a with emotion } = none) : Bares s c emotion

namespace StageAct

variable [Scalar α] {c : Command} {run : StageRun α}

/-- The stage and the signals after a command is refused for an emotion that a character lacks. -/
structure Refused (c : Command) (name emotion : String) (run run' : StageRun α) : Prop where
  actors : run'.stage.actors = run.stage.actors
  signals : run'.signals = run.signals ++
    [.unresolved c.id s!"'{name}' has no emotion '{emotion}'"]

/-- An actor whose emotion has no sprite does not come on stage. -/
theorem enter_refuses {character : Character}
    (hbare : character.sprite? (some (Character.orDefault c.params.emotion.join character.emotion))
      (some character.outfit) = none) (alpha : α) :
    Ends (enter c character alpha) run fun number? run' => number? = none ∧
      Refused c character.name (Character.orDefault c.params.emotion.join character.emotion) run
        run' := by
  rw [Character.sprite?_default] at hbare
  unfold enter
  simp only [Character.hasEmotion, hbare]
  exact Ends.change_bind (Ends.pure ⟨rfl, rfl, rfl⟩)

theorem onActor_refuses {character : Character}
    (hverb : c.verb = "appear" ∨ c.verb = "fade" ∧ c.params.direction = some .fadeIn)
    (hcharacter : run.stage.cast.characters.get? (c.target.getD "") = some character)
    (hbare : character.sprite? (some (Character.orDefault c.params.emotion.join character.emotion))
      (some character.outfit) = none) :
    Ends (onActor c) run fun _ => Refused c character.name
      (Character.orDefault c.params.emotion.join character.emotion) run := by
  have hcalled : Ends (calledCharacter c) run fun character? run' =>
      character? = some character ∧ run' = run := by
    refine calledCharacter_ends_get?.mono fun character? run' hrun' => ?_
    obtain ⟨hlooked, -, hsame⟩ := hrun'
    rw [hcharacter] at hlooked
    exact ⟨hlooked, hsame (hlooked ▸ rfl)⟩
  unfold onActor
  dsimp only
  rcases hverb with hverb | ⟨hverb, hdirection⟩
  · rw [if_pos (by simp [hverb])]
    refine hcalled.then_bind fun _ _ hrun' => ?_
    obtain ⟨rfl, rfl⟩ := hrun'
    exact Ends.discard ((enter_refuses hbare _).mono fun _ _ h => h.2)
  · have hfades : fadesIn c = .ok true := by simp [fadesIn, hverb, hdirection, need]
    rw [if_neg (by simp [hverb])]
    refine Ends.lift_bind hfades ?_
    rw [if_pos rfl]
    refine hcalled.then_bind fun _ _ hrun' => ?_
    obtain ⟨rfl, rfl⟩ := hrun'
    refine (enter_refuses hbare _).then_bind fun _ run' hrun' => ?_
    obtain ⟨rfl, hrefused⟩ := hrun'
    exact Ends.pure hrefused

omit [Scalar α] in
/-- An actor keeps its emotion if there is no sprite for the other. -/
theorem changeEmotion_refuses {emotion : String} {a : Actor α}
    (hactor : run.stage.actors.get? (c.target.getD "") = some a)
    (hbare : Actor.sprite? { a with emotion } = none) :
    Ends (changeEmotion c emotion) run fun _ => Refused c a.character.name emotion run := by
  have hsprite : a.character.sprite? (some emotion) (some a.outfit) = none := hbare
  refine Ends.view_bind ?_
  rw [hactor]
  simp only [Character.hasEmotion, hsprite]
  exact Ends.change ⟨rfl, rfl⟩

/-- A line of dialogue whose emotion is refused leaves the actors alone; it is reported if the line
    has a speaker, and does not come so far otherwise. -/
theorem onDialogue_refuses {emotion : String} {a : Actor α}
    (hemotion : c.params.emotion.join = some emotion)
    (hactor : run.stage.actors.get? (c.target.getD "") = some a)
    (hbare : Actor.sprite? { a with emotion } = none) :
    Lands (onDialogue c) run fun _ run' => run'.stage.actors = run.stage.actors ∧
      (c.params.speaker ≠ none → Refused c a.character.name emotion run run') := by
  have hrest (speaker : Option String) : Lands (do
      changeEmotion c emotion
      let narrating ← need "narrator" c.params.narrator
      change fun s => { s with narrating }
      let text ← need "text" c.params.text
      change fun s => { s with box := s.box.show speaker text } : StageAct α Unit) run
      fun _ run' => Refused c a.character.name emotion run run' := by
    refine Lands.bind_of_ends (changeEmotion_refuses hactor hbare) fun _ run' hrefused => ?_
    refine Lands.lift_bind hrefused fun narrating => Lands.change_bind ?_
    have hnarrating : Refused c a.character.name emotion run
        { run' with stage := { run'.stage with narrating } } :=
      ⟨hrefused.actors, hrefused.signals⟩
    refine Lands.lift_bind hnarrating fun text => Lands.change ?_
    exact ⟨hrefused.actors, hrefused.signals⟩
  unfold onDialogue
  rw [hemotion]
  cases hspeaker : c.params.speaker with
  | none => exact Lands.throw ⟨rfl, fun h => absurd rfl h⟩
  | some speaker => exact (hrest speaker).mono fun _ _ h => ⟨h.actors, fun _ => h⟩

end StageAct

/-- Take a cast that was filled by adding characters and animations, and a stage that anything has
    happened to. Every actor on it stands under the name of its character, wears the outfit that the
    character wears by default, and has a sprite. A command that would bring an actor on stage
    without a sprite, or take it from one by an emotion, leaves the actors as they are, and it is
    reported; a line of dialogue that lacks its speaker fails before that. -/
theorem Stage.actors_have_sprites [Scalar α] (hcast : cast.Filled) (reveal : RevealParams α)
    (durations : EffectDurations α) (logCapacity : Nat) (deeds : List (Deed α)) :
    let s := (Stage.empty cast reveal durations logCapacity).after deeds
    (∀ name a, (name, a) ∈ s.actors →
      a.character.name = name ∧ a.outfit = a.character.outfit ∧ a.sprite? ≠ none) ∧
    ∀ (c : Command) (emotion : String), c.Bares s emotion →
      let name := c.target.getD ""
      let run := ((StageAct.handle c).outcome { stage := s }).2
      run.stage.actors = s.actors ∧
        ((c.subsystem = .dialogue → c.params.speaker ≠ none) →
          run.signals = [.unresolved c.id s!"'{name}' has no emotion '{emotion}'"]) := by
  intro s
  have hempty : (Stage.empty cast reveal durations logCapacity).Dressed cast :=
    ⟨rfl, fun name a ha => by cases ha⟩
  have hs : s.Dressed cast := hempty.after hcast deeds
  refine ⟨fun name a ha => ?_, fun c emotion hbares => ?_⟩
  · have hdressed := hs.actors name a ha
    exact ⟨hcast.name_eq hdressed.known, hdressed.outfit, hdressed.sprite⟩
  · cases hbares with
    | entering hsubsystem hverb hcharacter hbare =>
      have hhandle : StageAct.handle c = (StageAct.onActor c : StageAct α Unit) := by
        unfold StageAct.handle
        rw [hsubsystem]
      have hends : Ends (StageAct.onActor c) { stage := s } _ :=
        StageAct.onActor_refuses hverb hcharacter hbare
      obtain ⟨_, run, hrun, hrefused⟩ := hends
      rw [hcast.name_eq (hs.cast_eq ▸ hcharacter)] at hrefused
      dsimp only
      rw [hhandle, hrun]
      exact ⟨hrefused.actors, fun _ => hrefused.signals⟩
    | speaking hsubsystem hemotion hactor hbare =>
      have hhandle : StageAct.handle c = (StageAct.onDialogue c : StageAct α Unit) := by
        unfold StageAct.handle
        rw [hsubsystem]
      have hlands : Lands (StageAct.onDialogue c) { stage := s } _ :=
        StageAct.onDialogue_refuses hemotion hactor hbare
      have hdressed := hs.actors _ _ (Table.mem_of_get? hactor)
      rw [hcast.name_eq hdressed.known] at hlands
      dsimp only
      rw [hhandle]
      exact ⟨hlands.1, fun hspeaker => (hlands.2 (hspeaker hsubsystem)).signals⟩

/-- A character with one sprite comes on stage, and then is to frown. -/
theorem Stage.actors_have_sprites_ann :
    let ann : Character :=
      { name := "Ann", outfits := [("coat", [("calm", "ann.png")])], outfit := "coat"
        emotion := "calm" }
    let cast : Cast := { characters := [("Ann", ann)] }
    let appear : Command := { id := 1, subsystem := .actor, verb := "appear", target := "Ann" }
    let frown : Command :=
      { id := 2, subsystem := .dialogue, verb := "say", target := "Ann"
        params := { speaker := some (some "Ann"), emotion := some (some "cross") } }
    let s : Stage Float := (Stage.empty cast .standard .standard 4).after [.command appear]
    cast.Filled ∧ s.actors.map (·.1) = ["Ann"] ∧ (∀ name a, (name, a) ∈ s.actors →
      a.character.name = name ∧ a.outfit = a.character.outfit ∧ a.sprite? ≠ none) ∧
    frown.Bares s "cross" ∧ ((StageAct.handle frown).outcome { stage := s }).2.signals =
      [.unresolved 2 "'Ann' has no emotion 'cross'"] := by
  intro ann cast appear frown s
  have hcast : cast.Filled := .character .empty (rfl : Cast.addCharacter {} ann "" = .ok cast)
  obtain ⟨hdressed, hrefused⟩ :=
    Stage.actors_have_sprites hcast (.standard : RevealParams Float) .standard 4 [.command appear]
  have hbares : frown.Bares s "cross" := .speaking rfl rfl rfl rfl
  exact ⟨hcast, rfl, hdressed, hbares, (hrefused frown "cross" hbares).2 fun _ h => by cases h⟩

end VisualNovel

import VisualNovel.Proofs.Script.WellFormed
import VisualNovel.Proofs.Stage.Effects

/-!
The stage carries out commands. A command of a well-formed directive never fails there, and one
whose effect the story waits for is answered: the stage reports it, or an effect owes it an
acknowledgement.
-/

namespace VisualNovel

open Act

/-! ### What commands bring along -/

/-- A command to somebody on stage, with the parameters that its verb needs. `admits` says where
    the somebody can be. -/
structure Command.Directs (admits : Placement → Prop) (c : Command) : Prop where
  admitted : ∀ placement, c.params.position = some placement → admits placement
  direction : c.verb = "fade" → ∃ fade, c.params.direction = some fade
  position : c.verb = "move" → ∃ placement, c.params.position = some placement
  facing : c.verb = "look" → ∃ facing, c.params.facing = some facing
  verb_of_durational : c.durational → c.verb = "fade" ∨ c.verb = "move"

/-- Actors stand at places and animations at coordinates. -/
def Placement.isPlace : Placement → Prop
  | .place _ => True
  | .coords _ => False

theorem Command.Directs.not_durational {admits : Placement → Prop} {c : Command}
    (h : c.Directs admits) (hfade : c.verb ≠ "fade") (hmove : c.verb ≠ "move") :
    ¬ c.durational :=
  fun hc => (h.verb_of_durational hc).elim hfade hmove

/-- A command that brings what its subsystem needs. -/
def Command.Playable (c : Command) : Prop :=
  match c.subsystem with
  | .actor => c.Directs Placement.isPlace
  | .animation => c.Directs fun placement => ¬ placement.isPlace
  | .background => c.params.id ≠ none ∧ ¬ c.durational
  | .gui => c.params.element ≠ none ∧ c.params.id ≠ none ∧ ¬ c.durational
  | .dialogue =>
    c.params.speaker ≠ none ∧ c.params.narrator ≠ none ∧ c.params.text ≠ none ∧ ¬ c.durational
  | .log => c.params.text ≠ none ∧ ¬ c.durational
  | .scene => c.params.name ≠ none ∧ ¬ c.durational

/-- What an actor or an animation that appears is asked to be is admitted for its kind. -/
theorem Phrase.playable (p : Phrase) (id : Int) : Command.Playable
    { id
      subsystem := p.direction.target.kind.subsystem
      verb := Vocabulary.word p.direction.action
      target := p.direction.target.name
      params := p.direction.completeParams
      durational := p.direction.action.isDurational } := by
  cases p with
  | sceneBegins | backgroundChanges | panelChanges =>
    simp [Command.Playable, direction, TargetKind.subsystem, StageDirection.completeParams,
      Action.isDurational]
  | actorAppears name e | actorFadesIn name e =>
    obtain ⟨_ | place, _, _⟩ := e <;>
    constructor <;>
    simp [direction, StageDirection.completeParams, Entrance.params, Vocabulary.word,
      Action.isDurational, Placement.isPlace]
  | animationAppears name s =>
    obtain ⟨_ | ⟨x, y⟩, _, _⟩ := s <;>
    constructor <;>
    simp [direction, StageDirection.completeParams, Showing.params, Vocabulary.word,
      Action.isDurational, Placement.isPlace]
  | actorDisappears | actorFadesOut | actorMoves | actorLooks | animationFades | animationMoves
  | animationLooks =>
    constructor <;>
    simp [direction, StageDirection.completeParams, Vocabulary.word, Action.isDurational,
      Placement.isPlace]

/-- The commands of well-formed directives are playable, and those take time whose directives do. -/
theorem Directive.WellFormed.playable {d : Directive} (hd : d.WellFormed) {resolved : Resolved}
    {id : Int} {c : Command} (hc : d.dispatch resolved id = .ok c) :
    c.Playable ∧ c.durational = d.isDurational := by
  cases d with
  | dialogue line =>
    obtain ⟨speaker, _ | text⟩ := resolved
    · cases hc
    · cases hc
      exact ⟨⟨by simp, by simp, by simp, by simp⟩, rfl⟩
  | log message =>
    obtain ⟨speaker, _ | text⟩ := resolved
    · cases hc
    · cases hc
      exact ⟨⟨by simp, by simp⟩, rfl⟩
  | stage direction =>
    obtain ⟨phrase, -, rfl⟩ := hd
    cases hc
    exact ⟨phrase.playable id, rfl⟩

/-! ### Carrying out -/

/-- What a command leaves: effects in order, and an answer to a command whose effect is waited
    for, be it at once or at the end of the effect. -/
structure Command.Handled (c : Command) (run : StageRun Float) : Prop where
  sound : run.stage.Sound (c.id + 1)
  answered : c.durational → run.stage.Owes c.id ∨ ∃ reason, .unresolved c.id reason ∈ run.signals

namespace StageAct

variable {c : Command} {run : StageRun Float}

theorem need_of_eq_some {α : Type} {key : String} {o : Option α} {a : α} (h : o = some a) :
    need key o = .ok a := by
  rw [h]
  rfl

/-- An actor comes on stage at a place. -/
theorem startPlace_eq_ok (hc : c.Directs Placement.isPlace) :
    ∃ place, startPlace c.params = .ok place := by
  unfold startPlace
  split
  · exact ⟨_, rfl⟩
  · exact ⟨_, rfl⟩
  · next xs hposition => exact (hc.admitted _ hposition).elim

/-- An actor that moves does so to a place. -/
theorem targetPlace_eq_ok (hc : c.Directs Placement.isPlace) (hmove : c.verb = "move") :
    ∃ place, targetPlace c.params = .ok place := by
  obtain ⟨placement, hposition⟩ := hc.position hmove
  have hadmitted := hc.admitted placement hposition
  cases placement with
  | place place => exact ⟨place, by rw [targetPlace, hposition]⟩
  | coords xs => exact hadmitted.elim

/-- A report leaves the effects alone. -/
theorem report_ends (hs : run.stage.Sound c.id) (reason : String) :
    Ends (signal (.unresolved c.id reason)) run fun _ run' => run'.stage.Sound c.id ∧
      ∃ reason, .unresolved c.id reason ∈ run'.signals :=
  Ends.change ⟨hs, reason, List.mem_append_right _ List.mem_cons_self⟩

theorem handled_of_report (hs : run.stage.Sound c.id)
    (hreport : ∃ reason, .unresolved c.id reason ∈ run.signals) : c.Handled run :=
  ⟨hs.mono (by omega), fun _ => .inr hreport⟩

theorem unresolved_ends (hs : run.stage.Sound c.id) (reason : String) :
    Ends (signal (.unresolved c.id reason)) run fun _ run' => c.Handled run' :=
  (report_ends hs reason).mono fun _ _ h => handled_of_report h.1 h.2

/-- A command that nobody waits for is done with when the effects are left alone. -/
theorem handled_of_animator_eq (hs : run.stage.Sound c.id) (hc : ¬ c.durational)
    {run' : StageRun Float} (h : run'.stage.animator = run.stage.animator) : c.Handled run' :=
  ⟨(hs.of_animator_eq h).mono (by omega), fun hdurational => absurd hdurational hc⟩

theorem change_ends (hs : run.stage.Sound c.id) (hc : ¬ c.durational)
    {f : Stage Float → Stage Float} (hf : (f run.stage).animator = run.stage.animator) :
    Ends (change f) run fun _ run' => c.Handled run' :=
  Ends.change (handled_of_animator_eq hs hc hf)

/-- Taking the effects of somebody away leaves the others in order. -/
theorem cancel_ends {next : Int} (hs : run.stage.Sound next) (number : Nat) :
    Ends (host.cancel number) run fun _ run' => run'.stage.Sound next := by
  refine Ends.change ⟨hs.animator.cancel number, ?_⟩
  show Effect.AllSound next (run.stage.animator.cancel number).unfinished
  rw [hs.animator.unfinished_cancel]
  exact hs.effects.sublist List.filter_sublist

/-- An effect that begins for a command owes it an acknowledgement from then on. -/
theorem tween_ends (hs : run.stage.Sound c.id) {number : Nat} {slot : Slot}
    {start finish : TweenValue Float} {duration : Float} {ease : Ease} {leaving : Option Leaving}
    (hmixes : Tween.Mixes (⟨number, slot, start, finish, duration, ease, Scalar.zero,
      some ⟨leaving, c.id⟩, false⟩ : Effect)) :
    Ends (tween number slot start finish duration ease ⟨leaving, c.id⟩) run
      fun _ run' => c.Handled run' := by
  obtain ⟨new, hnew⟩ : ∃ new : Effect, new = ⟨number, slot, start, finish, duration, ease,
      Scalar.zero, some ⟨leaving, c.id⟩, false⟩ := ⟨_, rfl⟩
  have hcommand : Effect.command? new = some c.id := by
    rw [hnew]
    rfl
  have hsound : Effect.Sound (c.id + 1) new := by
    refine ⟨hnew ▸ hmixes, ?_, c.id, hcommand, by omega⟩
    rw [hnew]
    exact (by decide : Scalar.lessEq (Scalar.zero : Float) Scalar.zero)
  have hyielded := hs.effects.map (f := Tween.yieldTo new) (fun e he => he.yieldTo new)
    (Effect.command?_yieldTo new)
  refine (tween_added hs.animator hnew).mono fun _ run' hrun' => ?_
  obtain ⟨hsound', hunfinished'⟩ := hrun'
  refine ⟨⟨hsound', ?_⟩, fun _ => .inl ⟨new, ?_, hcommand⟩⟩
  · rw [hunfinished']
    exact (hyielded.sublist List.filter_sublist).concat hsound hcommand
  · rw [hunfinished']
    exact List.mem_append_right _ List.mem_cons_self

/-- The character is found, or its absence is reported. -/
theorem calledCharacter_ends (hs : run.stage.Sound c.id) :
    Ends (calledCharacter c) run fun character? run' => run'.stage.Sound c.id ∧
      (character? = none → ∃ reason, .unresolved c.id reason ∈ run'.signals) := by
  refine Ends.view_bind ?_
  split
  · exact Ends.pure ⟨hs, by simp⟩
  · exact (report_ends hs _).then_bind fun _ run' h => Ends.pure ⟨h.1, fun _ => h.2⟩

theorem fresh_ends :
    Ends fresh run fun _ run' => run'.stage.animator = run.stage.animator :=
  Ends.view_bind (Ends.change_bind (Ends.pure rfl))

/-- An actor comes on stage, or its lack of an emotion is reported. -/
theorem enter_ends (hs : run.stage.Sound c.id) (hc : c.Directs Placement.isPlace)
    (character : Character) (alpha : Float) :
    Ends (enter c character alpha) run fun number? run' => run'.stage.Sound c.id ∧
      (number? = none → ∃ reason, .unresolved c.id reason ∈ run'.signals) := by
  obtain ⟨place, hplace⟩ := startPlace_eq_ok hc
  have hrest (run' : StageRun Float) (hs' : run'.stage.Sound c.id)
      (actor : Nat → Position → Actor Float) :
      Ends (do
        let place ← startPlace c.params
        let number ← fresh
        change fun s => { s with actors := s.actors.put character.name (actor number place) }
        return some number : StageAct Float (Option Nat)) run' fun number? run'' =>
          run''.stage.Sound c.id ∧
            (number? = none → ∃ reason, .unresolved c.id reason ∈ run''.signals) := by
    refine Ends.lift_bind hplace ?_
    refine fresh_ends.then_bind fun number run'' hrun'' => ?_
    exact Ends.change_bind (Ends.pure ⟨hs'.of_animator_eq hrun'', by simp⟩)
  unfold enter
  dsimp only
  split
  · exact (report_ends hs _).then_bind fun _ run' h => Ends.pure ⟨h.1, fun _ => h.2⟩
  · refine Ends.view_bind ?_
    split
    · next previous _ =>
      exact (cancel_ends hs previous.number).then_bind fun _ run' hs' => hrest run' hs' _
    · exact hrest run hs _

theorem direct_ends (hs : run.stage.Sound c.id) (hc : c.Directs Placement.isPlace) (name : String)
    (actor : Actor Float) :
    Ends (direct c name actor) run fun _ run' => c.Handled run' := by
  unfold direct
  split
  · next hverb =>
    have hdurational : ¬ c.durational := fun h => by
      rcases hc.verb_of_durational h with h | h <;> simp [h] at hverb
    refine (cancel_ends hs actor.number).then_bind fun _ run' hs' => ?_
    exact change_ends hs' hdurational rfl
  split
  · exact Ends.view_bind (tween_ends hs True.intro)
  split
  · next hmove =>
    obtain ⟨place, hplace⟩ := targetPlace_eq_ok hc (by simpa using hmove)
    exact Ends.lift_bind hplace (Ends.view_bind (tween_ends hs True.intro))
  split
  · next hlook =>
    obtain ⟨facing, hfacing⟩ := hc.facing (by simpa using hlook)
    have hdurational : ¬ c.durational := fun h => by
      rcases hc.verb_of_durational h with h | h <;> simp [h] at hlook
    exact Ends.lift_bind (need_of_eq_some hfacing) (change_ends hs hdurational rfl)
  · exact unresolved_ends hs _

/-- Whether a command fades somebody in is clear as soon as a fade says its direction. -/
theorem fadesIn_eq_ok {admits : Placement → Prop} (hc : c.Directs admits) :
    ∃ fading, fadesIn c = .ok fading := by
  unfold fadesIn
  split
  · next hfade =>
    have hverb : c.verb = "fade" := by simpa using hfade
    obtain ⟨fade, hfade⟩ := hc.direction hverb
    exact ⟨fade == .fadeIn, by rw [hfade]; rfl⟩
  · exact ⟨false, rfl⟩

theorem onActor_ends (hs : run.stage.Sound c.id) (hc : c.Directs Placement.isPlace) :
    Ends (onActor c) run fun _ run' => c.Handled run' := by
  unfold onActor
  dsimp only
  split
  · next happear =>
    have hdurational : ¬ c.durational := fun h => by
      rcases hc.verb_of_durational h with h | h <;> simp [h] at happear
    refine (calledCharacter_ends hs).then_bind fun character? run' h => ?_
    cases character? with
    | none => exact Ends.pure (handled_of_report h.1 (h.2 rfl))
    | some character =>
      refine Ends.discard ((enter_ends h.1 hc character Scalar.one).mono fun _ run'' h' => ?_)
      exact ⟨h'.1.mono (by omega), fun h => absurd h hdurational⟩
  · obtain ⟨fading, hfading⟩ := fadesIn_eq_ok hc
    refine Ends.lift_bind hfading ?_
    split
    · refine (calledCharacter_ends hs).then_bind fun character? run' h => ?_
      cases character? with
      | none => exact Ends.pure (handled_of_report h.1 (h.2 rfl))
      | some character =>
        refine (enter_ends h.1 hc character Scalar.zero).then_bind fun number? run'' h' => ?_
        cases number? with
        | none => exact Ends.pure (handled_of_report h'.1 (h'.2 rfl))
        | some number => exact Ends.view_bind (tween_ends h'.1 True.intro)
    · refine Ends.view_bind ?_
      split
      · exact unresolved_ends hs _
      · exact direct_ends hs hc _ _

/-- An animation comes on stage, and the effects go on. -/
theorem stageAnimation_ends {next : Int} (hs : run.stage.Sound next)
    (hc : c.Directs fun placement => ¬ placement.isPlace) (name : String) (sheet : SpriteSheet)
    (alpha : Float) :
    Ends (stageAnimation c name sheet alpha) run fun _ run' => run'.stage.Sound next := by
  refine Ends.view_bind ?_
  dsimp only
  split
  · next placement hposition =>
    cases placement with
    | place place => exact (hc.admitted _ hposition True.intro).elim
    | coords xs =>
      refine Ends.lift_bind rfl (fresh_ends.then_bind fun number run' hrun' => ?_)
      exact Ends.change_bind (Ends.pure (hs.of_animator_eq hrun'))
  · refine Ends.bind (Ends.pure (fresh_ends.then_bind fun number run' hrun' => ?_))
    exact Ends.change_bind (Ends.pure (hs.of_animator_eq hrun'))

theorem directAnimation_ends (hs : run.stage.Sound c.id)
    (hc : c.Directs fun placement => ¬ placement.isPlace) (name : String) (a : Animated Float) :
    Ends (directAnimation c name a) run fun _ run' => c.Handled run' := by
  unfold directAnimation
  split
  · exact Ends.view_bind (tween_ends hs True.intro)
  split
  · next hmove =>
    obtain ⟨placement, hposition⟩ := hc.position (by simpa using hmove)
    refine Ends.lift_bind (need_of_eq_some hposition) ?_
    cases placement with
    | place place => exact (hc.admitted _ hposition True.intro).elim
    | coords xs => exact Ends.lift_bind rfl (Ends.view_bind (tween_ends hs True.intro))
  split
  · next hlook =>
    obtain ⟨facing, hfacing⟩ := hc.facing (by simpa using hlook)
    have hdurational : ¬ c.durational := fun h => by
      rcases hc.verb_of_durational h with h | h <;> simp [h] at hlook
    exact Ends.lift_bind (need_of_eq_some hfacing) (change_ends hs hdurational rfl)
  · exact unresolved_ends hs _

theorem onAnimation_ends (hs : run.stage.Sound c.id)
    (hc : c.Directs fun placement => ¬ placement.isPlace) :
    Ends (onAnimation c) run fun _ run' => c.Handled run' := by
  obtain ⟨fading, hfading⟩ := fadesIn_eq_ok hc
  refine Ends.lift_bind hfading ?_
  split
  · next happear =>
    refine Ends.view_bind ?_
    split
    · exact unresolved_ends hs _
    · refine (stageAnimation_ends hs hc _ _ _).then_bind fun number run' hs' => ?_
      split
      · exact Ends.view_bind (tween_ends hs' True.intro)
      · next hfading =>
        refine Ends.pure ⟨hs'.mono (by omega), fun h => ?_⟩
        rcases hc.verb_of_durational h with h | h <;> simp [h, hfading] at happear
  · refine Ends.view_bind ?_
    split
    · exact unresolved_ends hs _
    · exact directAnimation_ends hs hc _ _

theorem onDialogue_ends (hs : run.stage.Sound c.id) (hspeaker : c.params.speaker ≠ none)
    (hnarrator : c.params.narrator ≠ none) (htext : c.params.text ≠ none) (hc : ¬ c.durational) :
    Ends (onDialogue c) run fun _ run' => c.Handled run' := by
  obtain ⟨speaker, hspeaker⟩ := Option.ne_none_iff_exists'.1 hspeaker
  obtain ⟨narrating, hnarrator⟩ := Option.ne_none_iff_exists'.1 hnarrator
  obtain ⟨text, htext⟩ := Option.ne_none_iff_exists'.1 htext
  have hrest (run' : StageRun Float) (hs' : run'.stage.Sound c.id) :
      Ends (do
        let narrating ← need "narrator" c.params.narrator
        change fun s => { s with narrating }
        let text ← need "text" c.params.text
        change fun s => { s with box := s.box.show speaker text } : StageAct Float Unit) run'
        fun _ run'' => c.Handled run'' := by
    refine Ends.lift_bind (need_of_eq_some hnarrator) (Ends.change_bind ?_)
    refine Ends.lift_bind (need_of_eq_some htext) (change_ends ?_ hc rfl)
    exact hs'.of_animator_eq rfl
  refine Ends.lift_bind (need_of_eq_some hspeaker) ?_
  split
  · next emotion _ =>
    have hemotion : Ends (changeEmotion c emotion) run fun _ run' => run'.stage.Sound c.id := by
      refine Ends.view_bind ?_
      split
      · exact (report_ends hs _).mono fun _ _ h => h.1
      · split
        · exact Ends.change (hs.of_animator_eq rfl)
        · exact (report_ends hs _).mono fun _ _ h => h.1
    exact hemotion.then_bind fun _ run' hs' => hrest run' hs'
  · exact hrest run hs

/-- The stage carries out or reports every playable command. -/
theorem handle_ends (hs : run.stage.Sound c.id) (hc : c.Playable) :
    Ends (handle c) run fun _ run' => c.Handled run' := by
  unfold Command.Playable at hc
  unfold handle
  cases hsubsystem : c.subsystem with
  | actor => exact onActor_ends hs (by simpa [hsubsystem] using hc)
  | animation => exact onAnimation_ends hs (by simpa [hsubsystem] using hc)
  | background =>
    rw [hsubsystem] at hc
    obtain ⟨id, hid⟩ := Option.ne_none_iff_exists'.1 hc.1
    exact Ends.lift_bind (need_of_eq_some hid) (change_ends hs hc.2 rfl)
  | gui =>
    rw [hsubsystem] at hc
    obtain ⟨panel, hpanel⟩ := Option.ne_none_iff_exists'.1 hc.1
    obtain ⟨id, hid⟩ := Option.ne_none_iff_exists'.1 hc.2.1
    refine Ends.lift_bind (need_of_eq_some hpanel) ?_
    exact Ends.lift_bind (need_of_eq_some hid) (change_ends hs hc.2.2 rfl)
  | dialogue =>
    rw [hsubsystem] at hc
    exact onDialogue_ends hs hc.1 hc.2.1 hc.2.2.1 hc.2.2.2
  | log =>
    rw [hsubsystem] at hc
    obtain ⟨text, htext⟩ := Option.ne_none_iff_exists'.1 hc.1
    exact Ends.lift_bind (need_of_eq_some htext) (change_ends hs hc.2 rfl)
  | scene =>
    rw [hsubsystem] at hc
    obtain ⟨name, hname⟩ := Option.ne_none_iff_exists'.1 hc.1
    exact Ends.lift_bind (need_of_eq_some hname) (change_ends hs hc.2 rfl)

end StageAct

end VisualNovel

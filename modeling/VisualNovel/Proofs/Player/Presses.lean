import VisualNovel.Player.Player
import VisualNovel.Proofs.Performance.Timing

/-!
What a press of the player does, in whatever way the player has come to the moment of it. The story
and the stage of a novel have only each other, so they are in step from its beginning on, and no
press, no time and no other input brings them out of step.
-/

namespace VisualNovel

open Act

namespace Player

/-- What happens to a player: time passes, or there is input. -/
inductive Turn where
  | time (dt : Float)
  | input (i : Input)

/-- What the player does about it. -/
def take : Turn → Playing Unit
  | .time dt => update dt
  | .input i => discard (handle i)

/-- The player after some turns. -/
def after (p : Player) (turns : List Turn) : Player :=
  turns.foldl (fun p turn => ((take turn).outcome p).2) p

/-- A player without a problem, whose story and stage are in step. -/
structure InStep (p : Player) : Prop where
  no_problem : p.problem = none
  performance : p.performance.InStep p.settings.runtime

/-- What is computed does not fail and leaves a player in step. -/
abbrev KeepsStep {β : Type} (a : Playing β) : Prop := Keeps InStep (fun _ => False) a

/-! ### The beginning -/

theorem outcome_cue (c : Cue Float) (p : Player) :
    (cue c).outcome p = (((Play.cue c).outcome p.performance).1.mapError PlayerError.play,
      { p with performance := ((Play.cue c).outcome p.performance).2 }) := rfl

/-- The novel before it begins: nothing has happened yet. -/
theorem of_ofSettings_eq_ok {settings : Settings} {files : FileTree} {images : ImageStore}
    {p : Player} (h : ofSettings settings files images = .ok p) :
    p.settings = settings ∧ ∃ cast bindings, p.performance = Performance.withStage
      { files, repertoire := { root := Path.ofString settings.paths.scripts }
        story := { bindings, settings := settings.runtime } }
      (Stage.empty cast settings.reveal settings.effects) := by
  unfold ofSettings at h
  cases hcast : openCast settings files with
  | error e =>
    rw [hcast] at h
    cases h
  | ok opened =>
    rw [hcast] at h
    cases h
    exact ⟨rfl, _, _, rfl⟩

/-- A player that has started has entered its novel. -/
theorem of_start_eq_ok {settings : Settings} {files : FileTree} {images : ImageStore} {p : Player}
    (h : Player.start settings files images = .ok p) :
    ∃ novel, ofSettings settings files images = .ok novel ∧ enter.outcome novel = (.ok (), p) := by
  unfold Player.start at h
  cases hnovel : ofSettings settings files images with
  | error e =>
    rw [hnovel] at h
    cases h
  | ok novel =>
    rw [hnovel] at h
    refine ⟨novel, rfl, ?_⟩
    dsimp only [bind, Except.bind] at h
    cases hentered : enter.outcome novel with
    | mk r p' =>
      rw [hentered] at h
      cases r with
      | error e => cases h
      | ok u =>
        cases h
        rfl

/-- Entering a novel without a problem starts its script. -/
theorem of_enter_eq_ok {novel p : Player} (h : enter.outcome novel = (.ok (), p))
    (hproblem : p.problem = none) : p.settings = novel.settings ∧ ∃ answer,
      (Play.cue (.start novel.settings.start)).outcome novel.performance =
        (.ok answer, p.performance) := by
  rw [enter, outcome_bind_of_ok (outcome_change _ _), outcome_bind_of_ok (outcome_get _)] at h
  dsimp only at h
  split at h
  · next hsome =>
    cases h
    rw [hproblem] at hsome
    cases hsome
  · rw [outcome_bind_of_ok (outcome_change _ _)] at h
    split at h
    · next answer hanswer =>
      cases h
      exact ⟨rfl, answer, Prod.ext hanswer rfl⟩
    · split at h
      · cases h
        cases hproblem
      · cases h

/-- A player that has started without a problem is in step. -/
theorem inStep_of_start {settings : Settings} {files : FileTree} {images : ImageStore} {p : Player}
    (h : Player.start settings files images = .ok p) (hproblem : p.problem = none) : p.InStep := by
  obtain ⟨novel, hnovel, hentered⟩ := of_start_eq_ok h
  obtain ⟨hsettings, cast, bindings, hperformance⟩ := of_ofSettings_eq_ok hnovel
  obtain ⟨hsame, answer, hstart⟩ := of_enter_eq_ok hentered hproblem
  rw [hperformance] at hstart
  refine ⟨hproblem, ?_⟩
  rw [hsame, hsettings]
  have hscripts : Repertoire.Compiled { root := Path.ofString settings.paths.scripts } := by
    intro entry hentry
    cases hentry
  exact Performance.inStep_of_start hscripts rfl hstart

/-! ### Turns -/

variable {p : Player}

/-- An operation on the performance that keeps it in step. -/
theorem cue_keepsStep {c : Cue Float} (h : ∀ (settings : RuntimeSettings) (q : Performance Float),
    q.InStep settings → Ends (Play.cue c) q fun _ q' => q'.InStep settings) :
    KeepsStep (cue c) := by
  intro p hp
  obtain ⟨answer, q, houtcome, hq⟩ := h p.settings.runtime p.performance hp.performance
  rw [outcome_cue, houtcome]
  exact ⟨⟨hp.no_problem, hq⟩, fun e he => by cases he⟩

theorem discard_keepsStep {β : Type} {a : Playing β} (h : KeepsStep a) : KeepsStep (discard a) :=
  Keeps.bind h fun _ => Keeps.pure ()

theorem frame_keepsStep (dt : Float) : KeepsStep (cue (.frame dt)) :=
  cue_keepsStep fun _ _ hq => (Play.frame_leads _ hq dt).mono fun _ _ h => h.2.1

theorem pressThrough_keepsStep : KeepsStep (cue .pressThrough) :=
  cue_keepsStep fun _ _ hq => (Play.pressThrough_ends hq).then_bind fun _ _ h =>
    Ends.pure (h.inStep hq)

theorem changeLayers_keepsStep (f : SceneStack Layer → SceneStack Layer) :
    KeepsStep (changeLayers f) :=
  Keeps.change fun _ hp => ⟨hp.no_problem, hp.performance⟩

theorem press_keepsStep : KeepsStep press := by
  refine Keeps.get_bind fun p _ => ?_
  split
  · exact Keeps.pure ()
  · exact discard_keepsStep pressThrough_keepsStep

theorem openBacklog_keepsStep : KeepsStep openBacklog := by
  refine Keeps.get_bind fun p _ => ?_
  split
  · exact Keeps.pure false
  · exact Keeps.bind (changeLayers_keepsStep _) fun _ => Keeps.pure true

theorem scroll_keepsStep (n scrolled : Int) : KeepsStep (scroll n scrolled) :=
  Keeps.get_bind fun _ _ => changeLayers_keepsStep _

theorem handleOnNovel_keepsStep (i : Input) : KeepsStep (handleOnNovel i) := by
  unfold handleOnNovel
  split
  · exact Keeps.bind (changeLayers_keepsStep _) fun _ => Keeps.pure true
  · exact openBacklog_keepsStep
  · split
    · exact Keeps.bind press_keepsStep fun _ => Keeps.pure true
    · exact Keeps.pure false
  · exact Keeps.bind press_keepsStep fun _ => Keeps.pure true
  · split
    · exact openBacklog_keepsStep
    · exact Keeps.pure false
  · exact Keeps.pure false

theorem handleOnBacklog_keepsStep (scrolled : Int) (i : Input) :
    KeepsStep (handleOnBacklog scrolled i) := by
  have hscroll (n : Int) : KeepsStep (do scroll n scrolled; return true : Playing Bool) :=
    Keeps.bind (scroll_keepsStep n scrolled) fun _ => Keeps.pure true
  have hclose : KeepsStep (do changeLayers (·.pop.2); return true : Playing Bool) :=
    Keeps.bind (changeLayers_keepsStep _) fun _ => Keeps.pure true
  unfold handleOnBacklog
  split
  · next k =>
    cases k with
    | h | escape => exact hclose
    | up | pageUp | down | pageDown => exact hscroll _
    | _ => exact Keeps.pure true
  · exact hscroll _
  · split
    · exact hclose
    · exact Keeps.pure false
  · exact Keeps.pure false

theorem handle_keepsStep (i : Input) : KeepsStep (handle i) := by
  refine Keeps.get_bind fun p _ => ?_
  split
  · exact Keeps.pure false
  · exact handleOnNovel_keepsStep i
  · exact handleOnBacklog_keepsStep _ i

theorem take_keepsStep (turn : Turn) : KeepsStep (take turn) := by
  cases turn with
  | time dt =>
    refine Keeps.get_bind fun p _ => ?_
    split
    · split
      · exact Keeps.pure ()
      · exact discard_keepsStep (frame_keepsStep dt)
    · exact Keeps.pure ()
  | input i => exact discard_keepsStep (handle_keepsStep i)

theorem InStep.after (h : p.InStep) (turns : List Turn) : (p.after turns).InStep := by
  induction turns generalizing p with
  | nil => exact h
  | cons turn rest ih => exact ih (take_keepsStep turn p h).1

/-- A press on the novel is a press of the player on the performance. -/
theorem outcome_press {q : Performance Float} {goesOn : Bool} (hproblem : p.problem = none)
    (h : Play.pressThrough.outcome p.performance = (.ok goesOn, q)) :
    press.outcome p = (.ok (), { p with performance := q }) := by
  have hcue : (Play.cue .pressThrough).outcome p.performance = (.ok (.flag goesOn), q) :=
    outcome_bind_of_ok h
  have hpressed : (cue .pressThrough).outcome p =
      (.ok (.flag goesOn), { p with performance := q }) := by
    rw [outcome_cue, hcue]
    rfl
  have hnone : p.problem.isSome = false := by rw [hproblem, Option.isSome_none]
  rw [press, outcome_bind_of_ok (outcome_get p), hnone]
  show (cue .pressThrough >>= fun _ => pure ()).outcome p = _
  rw [outcome_bind_of_ok hpressed]
  rfl

/-- Start a player, without a problem, and let time pass and input come in any way. Then the story
    has noted only what it missed, and nothing that was signalled out of turn. The box holds a line
    exactly while the story waits for the player at a line of dialogue. A press does one of three
    things and nothing else. It completes a line that is still appearing: all of its text can be seen
    then, and no press completes it again, if the time of the line is a number at all. Or it takes
    the story to the next directive of the scene, with nothing left in the box. Or, where the story
    does not wait for the player, it does nothing. -/
theorem press_completes_or_goesOn (settings : Settings) (files : FileTree) (images : ImageStore)
    (start : Player) (hstart : Player.start settings files images = .ok start)
    (hproblem : start.problem = none) (turns : List Turn) (p : Player)
    (hp : p = start.after turns) :
    ∃ stage c, p.performance.stage = some stage ∧ p.performance.story.cursor = some c ∧
      (∀ w ∈ p.performance.story.diagnostics, w.isResolution) ∧
      (stage.box.line.isSome ↔ c.wait = .advance ∧ ∃ line, c.here = some (.dialogue line)) ∧
      ∃ p', press.outcome p = (.ok (), p') ∧
        ((∃ line line', stage.box.line = some line ∧ line.isFinished = false ∧
            line' = { line with elapsed := line.duration } ∧ line'.visibleText = line.text ∧
            (Scalar.lessEq line.duration line.duration → line'.isFinished) ∧
            p' = { p with performance := { p.performance with
              stage := some { stage with box := { stage.box with line := some line' } } } }) ∨
          ((∀ line, stage.box.line = some line → line.isFinished) ∧ c.wait = .advance ∧
            p' = { p with performance := { p.performance with
              story := { p.performance.story with
                cursor := some { c with index := c.index + 1, wait := .ready, pending := none } }
              stage := some { stage with box := stage.box.hide } } }) ∨
          (c.wait ≠ .advance ∧ p' = p)) := by
  have hinStep : p.InStep := hp ▸ (inStep_of_start hstart hproblem).after turns
  obtain ⟨stage, c, hstage, hc, hmatches⟩ := hinStep.performance.staged
  refine ⟨stage, c, hstage, hc, hinStep.performance.inTurn, hmatches.shown, ?_⟩
  obtain ⟨goesOn, q, houtcome, hpressed⟩ := Play.pressThrough_ends hinStep.performance
  refine ⟨_, outcome_press hinStep.no_problem houtcome, ?_⟩
  cases hpressed with
  | @completes stage' line hstage' hline hrevealing =>
    cases hstage.symm.trans hstage'
    have hbegun : RevealedLine.Begun { line with elapsed := line.duration } :=
      hmatches.begun line hline
    exact .inl ⟨line, _, hline, hrevealing, rfl, hbegun.visibleText_eq rfl,
      hbegun.isFinished_eq rfl, rfl⟩
  | goesOn hstage' hfinished hc' hwait =>
    cases hstage.symm.trans hstage'
    cases hc.symm.trans hc'
    exact .inr (.inl ⟨hfinished, hwait, rfl⟩)
  | ignored hc' hwait =>
    cases hc.symm.trans hc'
    exact .inr (.inr ⟨hwait, rfl⟩)

/-- The player of a novel with one line presses while the line appears. -/
theorem press_completes_or_goesOn_hello :
    let files := ({} : FileTree).write (Path.ofString "game/content/Chapter 1/1.sabi")
      (.file ("SCENE a\nMC: \"Hello\"\nCURTAIN\n".toList.map (·.toUInt8)))
    let turns : List Turn := [.input (.click 1), .time (Scalar.decimal 1 2)]
    ∃ start, Player.start {} files {} = .ok start ∧ start.problem = none ∧
      ∃ p', press.outcome (start.after turns) = (.ok (), p') ∧
        p'.performance.story.cursor = (start.after turns).performance.story.cursor ∧
        ∃ line, p'.performance.stage.bind (·.box.line) = some line ∧ line.isFinished ∧
          line.visibleText = some "Hello" := by
  intro files turns
  have hrun : (Player.start {} files {}).toOption.map (fun start =>
      (start.problem, (start.after turns).performance.story.wait,
        ((start.after turns).performance.stage.bind (·.box.line)).map fun line =>
          (line.text, line.isFinished, Scalar.lessEq line.duration line.duration))) =
        some (none, some .advance, some (some "Hello", false, true)) := by
    decide +kernel
  cases hstart : Player.start {} files {} with
  | error e =>
    rw [hstart] at hrun
    cases hrun
  | ok start =>
    rw [hstart] at hrun
    obtain ⟨hproblem, hrest⟩ := Prod.ext_iff.1 (Option.some.inj hrun)
    obtain ⟨hwait, hshown⟩ := Prod.ext_iff.1 hrest
    obtain ⟨stage, c, hstage, hc, -, -, p', houtcome, hpress⟩ :=
      press_completes_or_goesOn {} files {} start hstart hproblem turns _ rfl
    obtain ⟨line₀, hline₀, hvalues⟩ := Option.map_eq_some_iff.1 hshown
    obtain ⟨htext, hvalues⟩ := Prod.ext_iff.1 hvalues
    obtain ⟨hrevealing, hnumber⟩ := Prod.ext_iff.1 hvalues
    rw [hstage] at hline₀
    refine ⟨start, rfl, hproblem, p', houtcome, ?_⟩
    rcases hpress with ⟨line, line', hline, -, -, hwhole, hfinished, rfl⟩ | ⟨hall, -⟩ | ⟨hnot, -⟩
    · cases hline₀.symm.trans hline
      exact ⟨rfl, line', rfl, hfinished hnumber, hwhole.trans htext⟩
    · rw [hall line₀ hline₀] at hrevealing
      cases hrevealing
    · have hadvance : (start.after turns).performance.story.wait = some .advance := hwait
      rw [Story.wait, hc] at hadvance
      exact absurd (Option.some.inj hadvance) hnot

end Player

end VisualNovel

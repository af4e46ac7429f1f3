import VisualNovel.Proofs.Performance.InStep

/-!
Timing does not matter. However time passes on stage while a story is performed, and however often
the player presses in vain, only the presses that the story waited for decide where it comes to and
what there is to see: effects that end leave what they would have left at any time.

Performances are compared at rest, with the effect that the story waits for brought to its end. Then
frames lead from one to the next by steps of the story alone, and there is only one way to go.
-/

namespace VisualNovel

open Act

/-- A step hands nothing on only where it halts. -/
theorem Story.cursor_step_of_eq_none {s : Story} {c : Cursor} (h : (s.step c).1 = .ok none) :
    (s.step c).2.cursor = some c.halt := by
  unfold step at h ⊢
  split at h
  · cases h
  split at h
  · rfl
  dsimp only at h
  split at h
  · cases h
  split at h
  · split at h
    · split at h
      · cases h
      · cases h
    · cases h
  · cases h

namespace Play

variable {α : Type} {p : Performance α} {deliver : Command → Play α Unit}

/-! ### Steps one by one -/

/-- A run of steps is one step and then the rest of them. -/
theorem outcome_steps_succ (number count : Nat) :
    (steps deliver number (count + 1)).outcome p =
      (do
        let commands ← steps deliver number 1
        return commands ++ (← steps deliver number count) : Play α (List Command)).outcome p := by
  by_cases hready : ∃ c, p.story.cursor = some c ∧ c.number = number ∧ c.wait = .ready
  · obtain ⟨c, hc, rfl, hready⟩ := hready
    rw [outcome_bind, outcome_steps_of_ready hc hready, outcome_steps_of_ready hc hready]
    cases hstep : (p.story.step c).1 with
    | error e => rfl
    | ok handed =>
      cases handed with
      | none =>
        dsimp only
        rw [outcome_pure]
        dsimp only
        rw [outcome_bind_of_ok (outcome_steps_of_not_ready (fun c' hc' => ?_) count)]
        · rfl
        · cases (Story.cursor_step_of_eq_none hstep).symm.trans hc'
          simp [Cursor.halt]
      | some command =>
        simp only [outcome_bind]
        cases (deliver command).outcome { p with story := (p.story.step c).2 } with
        | mk r p' => cases r <;> rfl
  · have hidle (count : Nat) : (steps deliver number count).outcome p = (.ok [], p) :=
      outcome_steps_of_not_ready (fun c hc h => hready ⟨c, hc, h⟩) count
    rw [outcome_bind, hidle, hidle]
    dsimp only
    rw [outcome_bind, hidle]
    rfl

end Play

/-! ### Where a performance comes to -/

namespace Performance

/-- The way of a performance at rest: steps while its story is ready, each of them brought to rest,
    and so many presses that it waited for. -/
inductive Leads (reaction : Nat → Command → Play Float Unit) :
    Nat → Performance Float → Performance Float → Prop
  | here (p : Performance Float) : Leads reaction 0 p p
  | step {n : Nat} {p q : Performance Float} {c : Cursor} (hc : p.story.cursor = some c)
      (hready : c.wait = .ready)
      (h : Leads reaction n
        ((Play.steps (Play.publish reaction) c.number 1).outcome p).2.rest q) :
      Leads reaction n p q
  | goOn {n : Nat} {p q : Performance Float} {c : Cursor} (hc : p.story.cursor = some c)
      (hwait : c.wait = .advance)
      (h : Leads reaction n { p with story := { p.story with cursor := some c.resume } } q) :
      Leads reaction (n + 1) p q

/-- The story waits for the player, or it is over. -/
def Pauses (p : Performance Float) : Prop :=
  p.story.wait = some .advance ∨ p.story.wait = some .halted

theorem Pauses.wait_ne {p : Performance Float} {c : Cursor} (h : p.Pauses)
    (hc : p.story.cursor = some c) : c.wait ≠ .ready ∧ c.wait ≠ .effect := by
  unfold Pauses at h
  rw [Story.wait, hc, Option.map_some] at h
  rcases h with hwait | hwait
  · simp [Option.some.inj hwait]
  · simp [Option.some.inj hwait]

namespace Leads

variable {reaction : Nat → Command → Play Float Unit} {m n : Nat} {p q q' r : Performance Float}

theorem trans (h : Leads reaction m p q) (h' : Leads reaction n q r) :
    Leads reaction (m + n) p r := by
  induction h with
  | here => exact (Nat.zero_add n).symm ▸ h'
  | step hc hready _ ih => exact .step hc hready (ih h')
  | goOn hc hwait _ ih =>
    rw [Nat.add_right_comm]
    exact .goOn hc hwait (ih h')

/-- A number of presses leads to a single pause. -/
theorem unique (h : Leads reaction n p q) (hq : q.Pauses) (h' : Leads reaction n p q')
    (hq' : q'.Pauses) : q = q' := by
  induction h generalizing q' with
  | here =>
    cases h' with
    | here => rfl
    | step hc hready => exact absurd hready (hq.wait_ne hc).1
  | step hc hready _ ih =>
    cases h' with
    | here => exact absurd hready (hq'.wait_ne hc).1
    | step hc' _ h' =>
      cases hc.symm.trans hc'
      exact ih hq h' hq'
    | goOn hc' hwait =>
      cases hc.symm.trans hc'
      simp [hready] at hwait
  | goOn hc hwait _ ih =>
    cases h' with
    | step hc' hready =>
      cases hc.symm.trans hc'
      simp [hready] at hwait
    | goOn hc' _ h' =>
      cases hc.symm.trans hc'
      exact ih hq h' hq'

end Leads

end Performance

namespace Play

open Performance

variable {settings : RuntimeSettings} {reaction : Nat → Command → Play Float Unit}
  {p p' : Performance Float}

/-- Steps lead on without any press. -/
theorem steps_leads (h : p.InStep settings) (number count : Nat) :
    Ends (steps (publish reaction) number count) p fun _ p' =>
      p'.InStep settings ∧ Leads reaction 0 p.rest p'.rest := by
  induction count generalizing p with
  | zero => exact Ends.pure ⟨h, .here _⟩
  | succ count ih =>
    by_cases hready : ∃ c, p.story.cursor = some c ∧ c.number = number ∧ c.wait = .ready
    · obtain ⟨c, hc, rfl, hready⟩ := hready
      obtain ⟨commands, p₁, q₁, hp₁, hq₁, hinStep, hrest⟩ :=
        step_inStep reaction h hc hready
      obtain ⟨stage, -, -, hresting⟩ := h.rest_eq hc (by simp [hready])
      have hcursor : p.rest.story.cursor = some c := by rw [hresting, hc]
      have hrun : Ends (do
          let commands ← steps (publish reaction) c.number 1
          return commands ++ (← steps (publish reaction) c.number count) : Play Float (List Command))
          p fun _ p' => p'.InStep settings ∧ Leads reaction 0 p.rest p'.rest := by
        refine Ends.bind ⟨commands, p₁, hp₁, (ih hinStep).then_bind fun _ p₂ hp₂ => Ends.pure ?_⟩
        refine ⟨hp₂.1, .step hcursor hready ?_⟩
        rw [hq₁, ← hrest]
        exact hp₂.2
      unfold Ends
      rw [outcome_steps_succ]
      exact hrun
    · have hidle : (steps (publish reaction) number (count + 1)).outcome p = (.ok [], p) :=
        outcome_steps_of_not_ready (fun c hc h => hready ⟨c, hc, h⟩) (count + 1)
      exact ⟨_, _, hidle, h, .here _⟩

theorem tick_leads (h : p.InStep settings) :
    Ends (tick (publish reaction)) p fun _ p' =>
      p'.InStep settings ∧ Leads reaction 0 p.rest p'.rest := by
  refine Ends.get_bind ?_
  dsimp only
  split
  · exact Ends.pure ⟨h, .here _⟩
  · exact steps_leads h _ _

/-- A frame leads on without any press, whatever time it takes. -/
theorem frame_leads (reaction : Nat → Command → Play Float Unit) (h : p.InStep settings)
    (dt : Float) :
    Ends (perform reaction (.frame dt)) p fun answer p' => (∀ goesOn, answer ≠ .flag goesOn) ∧
      p'.InStep settings ∧ Leads reaction 0 p.rest p'.rest := by
  refine (update_inStep h dt).then_bind fun _ p₁ hp₁ => ?_
  obtain ⟨hinStep, hrest⟩ := hp₁
  refine (tick_leads hinStep).then_bind fun _ p' hp' => Ends.pure ⟨by simp, hp'.1, ?_⟩
  exact hrest ▸ hp'.2

end Play

namespace Performance

variable {settings : RuntimeSettings} {reaction : Nat → Command → Play Float Unit}
  {p p' : Performance Float} {goesOn : Bool}

/-- A press leads on only if it is one that the story waited for. -/
theorem Pressed.leads (hp : p.Pressed goesOn p') (h : p.InStep settings) :
    Leads reaction (if goesOn then 1 else 0) p.rest p'.rest := by
  have h' := hp.inStep h
  cases hp with
  | ignored => exact .here _
  | @completes stage line hstage =>
    have hrest : rest { p with stage := some { stage with box :=
        { stage.box with line := some { line with elapsed := line.duration } } } } = p.rest := by
      simp only [rest, hstage, Option.map_some]
      rfl
    rw [hrest]
    exact .here _
  | goesOn hstage hfinished hc hwait =>
    obtain ⟨stage, hstage', -, hrest⟩ := h.rest_eq hc (by simp [hwait])
    cases hstage.symm.trans hstage'
    obtain ⟨stage', hstage'', -, hrest'⟩ := h'.rest_eq rfl (by simp [Cursor.resume])
    cases hstage''
    rw [hrest, hrest']
    exact .goOn hc hwait (.here _)

end Performance

/-! ### Runs -/

/-- What the player's program does: frames of any length, and presses. -/
def Cue.IsTurn : Cue Float → Prop
  | .frame _ => True
  | .pressThrough => True
  | _ => False

namespace Performance

variable {settings : RuntimeSettings} {p : Performance Float}

/-- Whether the story goes on after an operation because of a press. -/
def goesOn (depth : Nat) (p : Performance Float) (cue : Cue Float) : Bool :=
  match ((Play.perform (Play.react depth) cue).outcome p).1 with
  | .ok (.flag goesOn) => goesOn
  | _ => false

/-- How many presses in a run made the story go on. -/
def advances (depth : Nat) (p : Performance Float) : List (Cue Float) → Nat
  | [] => 0
  | cue :: rest =>
    (if p.goesOn depth cue then 1 else 0) + (p.after depth [cue]).advances depth rest

theorem turn_leads (h : p.InStep settings) (depth : Nat) {cue : Cue Float} (hcue : cue.IsTurn) :
    (p.after depth [cue]).InStep settings ∧
      Leads (Play.react depth) (if p.goesOn depth cue then 1 else 0) p.rest
        (p.after depth [cue]).rest := by
  have hafter : p.after depth [cue] = ((Play.perform (Play.react depth) cue).outcome p).2 := rfl
  cases cue with
  | frame dt =>
    obtain ⟨answer, p', houtcome, hanswer, hinStep, hleads⟩ :=
      Play.frame_leads (Play.react depth) h dt
    have hgoesOn : p.goesOn depth (.frame dt) = false := by
      rw [goesOn, houtcome]
      cases answer with
      | flag goesOn => exact absurd rfl (hanswer goesOn)
      | _ => rfl
    rw [hafter, houtcome, hgoesOn]
    exact ⟨hinStep, hleads⟩
  | pressThrough =>
    obtain ⟨goesOn, p', hpressed, hp'⟩ := Play.pressThrough_ends h
    have houtcome : (Play.perform (Play.react depth) .pressThrough).outcome p =
        (.ok (.flag goesOn), p') := outcome_bind_of_ok hpressed
    have hgoesOn : p.goesOn depth .pressThrough = goesOn := by
      rw [Performance.goesOn, houtcome]
    rw [hafter, houtcome, hgoesOn]
    exact ⟨hp'.inStep h, hp'.leads h⟩
  | _ => exact hcue.elim

/-- A run leads on by its presses that made the story go on. -/
theorem after_leads (h : p.InStep settings) (depth : Nat) {cues : List (Cue Float)}
    (hcues : ∀ cue ∈ cues, cue.IsTurn) :
    (p.after depth cues).InStep settings ∧
      Leads (Play.react depth) (p.advances depth cues) p.rest (p.after depth cues).rest := by
  induction cues generalizing p with
  | nil => exact ⟨h, .here _⟩
  | cons cue rest ih =>
    obtain ⟨hcue, hrest⟩ := List.forall_mem_cons.1 hcues
    obtain ⟨hinStep, hleads⟩ := turn_leads h depth hcue
    obtain ⟨hafter, hleads'⟩ := ih hinStep hrest
    exact ⟨hafter, hleads.trans hleads'⟩

/-- At a pause nothing is left to come to rest but the time that has passed on stage. -/
theorem InStep.of_pauses (h : p.InStep settings) (hpauses : p.Pauses) :
    p.rest.Pauses ∧ ∃ stage, p.stage = some stage ∧
      p.rest = { p with stage := some stage.still } := by
  obtain ⟨-, c, -, hc, -⟩ := h.staged
  obtain ⟨stage, hstage, -, hrest⟩ := h.rest_eq hc (hpauses.wait_ne hc).2
  refine ⟨?_, stage, hstage, hrest⟩
  rw [hrest]
  exact hpauses

/-- Start a script on an empty stage, and then let frames of any length pass and the player press,
    in two different ways. If as many presses made the story go on in one run as in the other, and
    each of them has come to a point where the story waits for the player or is over, then the two
    stories are the same, with their cursor, their history and everything they have noted; and on the
    two stages are the same actors, animations, panels, background, scene and log. Only the clocks of
    the animations may differ. -/
theorem pauses_whatever_timing (files : FileTree) (repertoire : Repertoire)
    (hscripts : repertoire.Compiled) (bindings : Variables) (settings : RuntimeSettings)
    (cast : Cast) (reveal : RevealParams Float) (durations : EffectDurations Float)
    (logCapacity depth : Nat) (id : ScriptId) (answer : CueAnswer) (p q : Performance Float)
    (hp : p = { files, repertoire, story := { bindings, settings } })
    (hstart : (Play.perform (Play.react depth) (.start id)).outcome
      (p.withStage (Stage.empty cast reveal durations logCapacity)) = (.ok answer, q))
    (cues cues' : List (Cue Float)) (hcues : ∀ cue ∈ cues, cue.IsTurn)
    (hcues' : ∀ cue ∈ cues', cue.IsTurn)
    (hadvances : q.advances depth cues = q.advances depth cues')
    (r r' : Performance Float) (hr : r = q.after depth cues) (hr' : r' = q.after depth cues')
    (hpauses : r.Pauses) (hpauses' : r'.Pauses) :
    r.story = r'.story ∧ ∃ stage stage', r.stage = some stage ∧ r'.stage = some stage' ∧
      stage.actors = stage'.actors ∧
      (stage.animations.map fun (name, a) => (name, { a with elapsed := Scalar.zero })) =
        (stage'.animations.map fun (name, a) => (name, { a with elapsed := Scalar.zero })) ∧
      stage.panels = stage'.panels ∧ stage.background = stage'.background ∧
      stage.scene = stage'.scene ∧ stage.log = stage'.log := by
  have hq := inStep_of_start hscripts hp hstart
  obtain ⟨hinStep, hleads⟩ := after_leads hq depth hcues
  obtain ⟨hinStep', hleads'⟩ := after_leads hq depth hcues'
  rw [← hr] at hinStep hleads
  rw [← hr'] at hinStep' hleads'
  obtain ⟨hrests, stage, hstage, hrest⟩ := hinStep.of_pauses hpauses
  obtain ⟨hrests', stage', hstage', hrest'⟩ := hinStep'.of_pauses hpauses'
  have hsame : r.rest = r'.rest := hleads.unique hrests (hadvances ▸ hleads') hrests'
  rw [hrest, hrest'] at hsame
  have hstory : r.story = r'.story := (congrArg Performance.story hsame :)
  have hstill : stage.still = stage'.still := Option.some.inj (congrArg Performance.stage hsame :)
  refine ⟨hstory, stage, stage', hstage, hstage', ?_, ?_, ?_, ?_, ?_, ?_⟩
  · exact (congrArg Stage.actors hstill :)
  · exact (congrArg Stage.animations hstill :)
  · exact (congrArg Stage.panels hstill :)
  · exact (congrArg Stage.background hstill :)
  · exact (congrArg Stage.scene hstill :)
  · exact (congrArg Stage.log hstill :)

/-- Mia comes, and later moves, in two runs at different paces: one with long frames and a press
    that completes the first line, the other with a press in vain, a fade in three parts, and time to
    read. -/
theorem pauses_whatever_timing_two_paces :
    let mia : Character := ⟨"mia", [("plain", [("calm", "mia.png")])], "plain", "calm", ""⟩
    let script :=
      "SCENE a\n(mia fades in)\nMC: \"Hello\"\n(mia moves to left)\nMC: \"Bye\"\nCURTAIN\n"
    let files := ({} : FileTree).write (Path.ofString "scripts/one/one.sabi")
      (.file (script.toList.map (·.toUInt8)))
    let p : Performance Float :=
      { files, repertoire := { root := Path.ofString "scripts" }, story := {} }
    let stage : Stage Float := Stage.empty { characters := [("mia", mia)] } .standard .standard 4
    let q := ((Play.perform (Play.react 1) (.start ⟨"one", "one"⟩)).outcome (p.withStage stage)).2
    let short : Float := Scalar.decimal 25 2
    let long : Float := Scalar.nat 2
    let cues : List (Cue Float) :=
      [.frame long, .frame long, .pressThrough, .pressThrough, .frame long, .frame long]
    let cues' : List (Cue Float) :=
      [.pressThrough, .frame short, .frame short, .frame short, .frame short, .frame long,
        .pressThrough, .frame short, .frame long]
    let r := q.after 1 cues
    let r' := q.after 1 cues'
    (∀ cue ∈ cues ++ cues', cue.IsTurn) ∧ q.advances 1 cues = 1 ∧ q.advances 1 cues' = 1 ∧
      r.Pauses ∧ r'.Pauses ∧ r.story = r'.story ∧
      ∃ stage stage', r.stage = some stage ∧ r'.stage = some stage' ∧
        stage.actors = stage'.actors ∧ stage.actors.length = 1 := by
  intro mia script files p stage q short long cues cues' r r'
  have hruns : ((Play.perform (Play.react 1) (.start ⟨"one", "one"⟩)).outcome
      (p.withStage stage)).1.isOk ∧ q.advances 1 cues = 1 ∧ q.advances 1 cues' = 1 ∧
      r.story.wait = some .advance ∧ r'.story.wait = some .advance ∧
      r.stage.map (·.actors.length) = some 1 := by decide +kernel
  obtain ⟨hok, hadvances, hadvances', hwait, hwait', hlength⟩ := hruns
  have hcues : ∀ cue ∈ cues ++ cues', cue.IsTurn := by simp [cues, cues', Cue.IsTurn]
  obtain ⟨answer, hstart⟩ := exists_outcome_eq_ok hok
  obtain ⟨hcues₁, hcues₂⟩ := List.forall_mem_append.1 hcues
  obtain ⟨hstory, stage₁, stage₂, hstage₁, hstage₂, hactors, -⟩ :=
    pauses_whatever_timing files { root := Path.ofString "scripts" } (by simp [Repertoire.Compiled])
      [] {} { characters := [("mia", mia)] } .standard .standard 4 1 ⟨"one", "one"⟩ answer p q rfl
      hstart cues cues' hcues₁ hcues₂
      (hadvances.trans hadvances'.symm) r r' rfl rfl (.inl hwait) (.inl hwait')
  refine ⟨hcues, hadvances, hadvances', .inl hwait, .inl hwait', hstory, stage₁, stage₂, hstage₁,
    hstage₂, hactors, ?_⟩
  rw [hstage₁] at hlength
  exact Option.some.inj hlength

end Performance

end VisualNovel

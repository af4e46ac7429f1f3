import VisualNovel.Proofs.Performance.Invariants
import VisualNovel.Proofs.Script.Shelf
import VisualNovel.Proofs.Story.Soundness

/-!
Handlers may operate the performance from inside a delivery, in the middle of a step of the story:
signal back, start another script, or let the story run on. Whatever they do, between two
operations the story is sound, because a step has put the story in order before its command is
handed on.
-/

namespace VisualNovel

open Act

/-! ### The invariant of a performance -/

namespace Performance

variable {α : Type}

/-- A performance of compiled scripts only, whose story is sound. -/
structure Sound (settings : RuntimeSettings) (p : Performance α) : Prop where
  repertoire_compiled : p.repertoire.Compiled
  story_sound : p.story.Sound settings

theorem Sound.hear {settings : RuntimeSettings} {p : Performance α} (h : p.Sound settings)
    (s : Signal) : (p.hear s).Sound settings := by
  cases s with
  | completed command => exact ⟨h.repertoire_compiled, h.story_sound.effectCompleted command⟩
  | unresolved command reason =>
    exact ⟨h.repertoire_compiled, h.story_sound.unresolved command reason⟩

/-- The story may hear any number of signals. -/
theorem Sound.foldl_hear {settings : RuntimeSettings} {p : Performance α} (h : p.Sound settings)
    (signals : List Signal) : (signals.foldl (fun p s => p.hear s) p).Sound settings :=
  Play.foldl_hear_keeps (fun _ signal h => h.hear signal) h signals

end Performance

namespace Play

variable {α : Type} {settings : RuntimeSettings}

/-- What is computed keeps the performance sound and fails at most over a script that cannot be
    loaded or over something that is not the story's. -/
abbrev Safe (settings : RuntimeSettings) {β : Type} (a : Play α β) : Prop :=
  Keeps (Performance.Sound settings) PlayError.SparesStory a

theorem onStage_safe (work : StageAct α Unit) : Safe settings (onStage work) :=
  onStage_keeps (fun _ => trivial) (fun _ signal h => h.hear signal)
    (fun _ _ h => ⟨h.repertoire_compiled, h.story_sound⟩) work

end Play

namespace Performance

/-- Soundness outlives everything: a step has put the story in order before its command is handed
    on, and a script that was loaded has a first scene. -/
theorem Sound.lasting {α : Type} [Scalar α] {settings : RuntimeSettings} :
    Lasting (fun _ => True) PlayError.SparesStory (Sound (α := α) settings) where
  spares _ he := he
  of_eq p p' h hrepertoire hstory _ _ _ := by
    refine ⟨?_, ?_⟩
    · rw [hrepertoire]
      exact h.repertoire_compiled
    · rw [hstory]
      exact h.story_sound
  hear _ signal h := h.hear signal
  advance _ h := ⟨h.repertoire_compiled, h.story_sound.advance⟩
  abandon _ _ _ h := ⟨h.repertoire_compiled, h.story_sound.abandon⟩
  begin p id shelved repertoire scene _ h hload hfirst := by
    obtain ⟨hscript, hrepertoire⟩ := h.repertoire_compiled.load hload
    exact ⟨hrepertoire, h.story_sound.begin id hscript hfirst⟩
  empty p id shelved repertoire h hload hfirst := by
    obtain ⟨hscript, -⟩ := h.repertoire_compiled.load hload
    have hempty := List.head?_eq_none_iff.1 hfirst
    exact absurd hempty (Script.validate_eq_ok_iff.1 hscript.validate).1
  register p id text script repertoire h hcompile hregister :=
    ⟨h.repertoire_compiled.register ⟨text, none, hcompile⟩ hregister, h.story_sound⟩
  setVariable _ _ _ _ h :=
    ⟨h.repertoire_compiled, h.story_sound.settings_eq, h.story_sound.cursor_sound⟩
  eraseVariable _ _ _ h :=
    ⟨h.repertoire_compiled, h.story_sound.settings_eq, h.story_sound.cursor_sound⟩
  subscribe _ _ _ _ h := ⟨h.repertoire_compiled, h.story_sound⟩
  update dt _ := Play.onStage_safe (StageAct.update dt)
  press _ _ _ h _ := ⟨h.repertoire_compiled, h.story_sound⟩
  step p c h hc hready := by
    obtain ⟨hsound, hok⟩ := h.story_sound.step hc hready
    exact ⟨⟨h.repertoire_compiled, hsound⟩, fun e he => absurd he (hok e)⟩
  handle c := Play.onStage_safe (StageAct.handle c)
  gives _ _ _ _ _ _ _ _ _ _ _ := trivial
  notice _ _ h := ⟨h.repertoire_compiled, h.story_sound⟩

end Performance

namespace Play

variable {α : Type} [Scalar α] {settings : RuntimeSettings} {reaction : Nat → Command → Play α Unit}

theorem publish_safe (hreaction : ∀ number c, Safe settings (reaction number c)) (c : Command) :
    Safe settings (publish reaction c) :=
  publish_keeps Performance.Sound.lasting hreaction c

/-- Every operation is safe, whatever handlers do about the commands that it hands on. -/
theorem perform_safe (hreaction : ∀ number c, Safe settings (reaction number c)) (cue : Cue α) :
    Safe settings (perform reaction cue) :=
  cue_keeps Performance.Sound.lasting hreaction trivial

/-- So is a handler's response. -/
theorem react_safe (depth number : Nat) (c : Command) :
    Safe settings (react depth number c : Play α Unit) :=
  react_keeps Performance.Sound.lasting depth number c

end Play

/-- Soundness lasts over any run of operations. -/
theorem Performance.Sound.after {α : Type} [Scalar α] {settings : RuntimeSettings}
    {p : Performance α} (h : p.Sound settings) (depth : Nat) (cues : List (Cue α)) :
    (p.after depth cues).Sound settings :=
  Performance.Sound.lasting.after h depth fun _ _ => trivial

/-- Take a performance without scripts or a cursor, and let it be operated from outside in any way.
    `respond` in `Cue.subscribe` is arbitrary, so handlers may answer each command by any
    operations, and by others on another run. Then the cursor is sound whenever no operation is in
    progress, and no operation fails over the story but where a script cannot be loaded: a step
    finds its scene and its directive and evaluates its command. -/
theorem Performance.cursor_sound_after {α : Type} [Scalar α] (p : Performance α)
    (hcursor : p.story.cursor = none) (hshelf : p.repertoire.shelf = []) (depth : Nat)
    (cues : List (Cue α)) :
    (∀ c, (p.after depth cues).story.cursor = some c → c.Sound p.story.settings) ∧
      ∀ cue e, ((Play.perform (Play.react depth) cue).outcome (p.after depth cues)).1 =
        .error (.story e) → ∃ cause, e = .load cause := by
  have hfresh : p.Sound p.story.settings := by
    refine ⟨fun entry hentry => ?_, rfl, fun c hc => ?_⟩
    · simp [hshelf] at hentry
    · simp [hcursor] at hc
  have hsound := hfresh.after depth cues
  refine ⟨hsound.story_sound.cursor_sound, fun cue e he => ?_⟩
  have hspared := (Play.perform_safe (Play.react_safe depth) cue _ hsound).2 _ he
  cases e with
  | load cause => exact ⟨cause, rfl⟩
  | param e => exact hspared.elim
  | noScene name => exact hspared.elim

/-- A line whose handler goes on and plays to the curtain before the line's own tick is over. -/
theorem Performance.cursor_sound_after_answered_line :
    let p : Performance Float := { repertoire := { root := Path.ofString "scripts" }, story := {} }
    let cues : List (Cue Float) :=
      [.register ⟨"one", "one"⟩ "SCENE a\nMC: \"Hello\"\nCURTAIN\n",
        .subscribe .dialogue fun _ _ => some [.advance, .tick],
        .start ⟨"one", "one"⟩, .tick]
    ∃ c, (p.after 2 cues).story.cursor = some c ∧ c.wait = .halted ∧ c.Sound {} := by
  intro p cues
  have hhalted : (p.after 2 cues).story.cursor.map (·.wait) = some .halted := by decide +kernel
  obtain ⟨c, hc, hwait⟩ := Option.map_eq_some_iff.1 hhalted
  exact ⟨c, hc, hwait, (cursor_sound_after p rfl rfl 2 cues).1 c hc⟩

end VisualNovel

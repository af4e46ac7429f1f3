import VisualNovel.Proofs.Performance.Lasting
import VisualNovel.Proofs.Story.Walk

/-!
Once it is started, a story hands on the commands of the walk through its script, whoever signals
what and however often it is cut short: signals and the number of steps that it may make at once
only decide how far it gets.
-/

namespace VisualNovel

open Act

variable {α : Type}

/-- Operations that neither start a script nor change the variables, and register no handler. -/
def Cue.isPlain : Cue α → Bool
  | .start _ => false
  | .subscribe _ _ => false
  | .setVariable _ _ => false
  | .eraseVariable _ => false
  | _ => true

/-- Operations that leave the story to the script that it was started with and keep its variables
    within some tables. Handlers that they register answer with such operations only. -/
inductive Cue.Continues (tables : Variables → Prop) : Cue α → Prop
  | plain {cue : Cue α} (h : cue.isPlain) : Continues tables cue
  | subscribe {s : Subsystem} {respond : Nat → Command → Option (List (Cue α))}
      (h : ∀ noticed c cues, respond noticed c = some cues → ∀ cue ∈ cues, Continues tables cue) :
      Continues tables (.subscribe s respond)
  | setVariable {name : String} {value : Data} (h : ∀ t, tables t → tables (t.put name value)) :
      Continues tables (.setVariable name value)
  | eraseVariable {name : String} (h : ∀ t, tables t → tables (t.erase name)) :
      Continues tables (.eraseVariable name)

namespace Cue.Continues

variable {tables : Variables → Prop}

theorem not_start {id : ScriptId} : ¬ Continues tables (.start id : Cue α) := by
  intro h
  cases h with
  | plain h => cases h

theorem gives {s : Subsystem} {respond : Nat → Command → Option (List (Cue α))}
    (h : Continues tables (.subscribe s respond : Cue α)) :
    Handler.Gives (Continues tables) (⟨0, respond⟩ : Handler α) := by
  cases h with
  | plain h => cases h
  | subscribe h => exact h

theorem put {name : String} {value : Data}
    (h : Continues tables (.setVariable name value : Cue α)) (t : Variables) (ht : tables t) :
    tables (t.put name value) := by
  cases h with
  | plain h => cases h
  | setVariable h => exact h t ht

theorem erase {name : String} (h : Continues tables (.eraseVariable name : Cue α)) (t : Variables)
    (ht : tables t) : tables (t.erase name) := by
  cases h with
  | plain h => cases h
  | eraseVariable h => exact h t ht

end Cue.Continues

namespace Story

variable {tables : Variables → Prop} {settings : RuntimeSettings}

/-- What says nothing about the story lasts anyway. -/
theorem Lasting.trivial :
    Lasting (Cue.Continues tables : Cue α → Prop) settings fun _ => True where
  warn _ _ _ := True.intro
  resume _ _ _ _ _ _ := True.intro
  halt _ _ _ _ _ _ _ := True.intro
  handOn _ _ _ _ _ _ _ _ _ _ := True.intro
  abandon _ _ _ _ := True.intro
  begin _ _ _ _ _ _ _ _ := True.intro
  setVariable _ _ _ _ _ := True.intro
  eraseVariable _ _ _ _ := True.intro
  subscribe _ _ h := h.gives

/-- A story that is not started anew stays on its walk. -/
theorem OnWalk.lasting (script : Script) (origin : Place) (start : Story) :
    Lasting (Cue.Continues tables : Cue α → Prop) settings fun s =>
      ∃ commands, s.OnWalk script origin tables start commands where
  warn s w h := by
    obtain ⟨commands, h⟩ := h
    exact ⟨commands, h.warn w⟩
  resume s c hs hc hwait h := by
    obtain ⟨commands, h⟩ := h
    exact ⟨commands, h.resume hs hc hwait⟩
  halt s c _ hc hready hhere h := by
    obtain ⟨commands, h⟩ := h
    exact ⟨commands, h.halt hc hready hhere⟩
  handOn s c d command _ hc hready hd hcommand h := by
    obtain ⟨commands, h⟩ := h
    exact ⟨commands ++ [command], h.handOn hc hready hd hcommand⟩
  abandon _ hid _ _ := absurd hid Cue.Continues.not_start
  begin _ hid _ _ _ _ _ _ := absurd hid Cue.Continues.not_start
  setVariable name value hcue s h := by
    obtain ⟨commands, h⟩ := h
    exact ⟨commands, { h with bindings := hcue.put _ h.bindings }⟩
  eraseVariable name hcue s h := by
    obtain ⟨commands, h⟩ := h
    exact ⟨commands, { h with bindings := hcue.erase _ h.bindings }⟩
  subscribe _ _ h := h.gives

end Story

namespace Performance

/-- The performance with another number of steps that its story may make at once. -/
def capped (p : Performance α) (cap : Int) : Performance α :=
  { p with story := { p.story with settings := { p.story.settings with maxStepsPerTick := cap } } }

variable {tables : Variables → Prop} {p q : Performance α}

/-- A story that was started, with handlers that do not start another one. -/
theorem Keeping.started [Scalar α] {settings : RuntimeSettings}
    (h : p.Keeping (Cue.Continues tables) settings fun _ => True) {depth : Nat}
    {id : ScriptId} {answer : CueAnswer}
    (hstart : (Play.perform (Play.react depth) (.start id)).outcome p = (.ok answer, q))
    (htables : tables q.story.bindings) :
    ∃ c scene, q.story.cursor = some c ∧ c.script.Compiled ∧ c.script.scenes.head? = some scene ∧
      c.place = ⟨scene.name, 0⟩ ∧
      ∀ cap, (q.capped cap).Keeping (Cue.Continues tables)
        { settings with maxStepsPerTick := cap } fun s =>
          ∃ commands, s.OnWalk c.script c.place tables q.story commands := by
  obtain ⟨shelved, repertoire, scene, hload, hfirst, rfl⟩ := Play.of_start_eq_ok hstart
  obtain ⟨hscript, hrepertoire⟩ := h.sound.repertoire_compiled.load hload
  refine ⟨_, scene, rfl, hscript, hfirst, rfl, fun cap => ⟨⟨hrepertoire, ?_⟩, h.handlers, [], ?_⟩⟩
  · have habandoned : Story.Sound { settings with maxStepsPerTick := cap }
        { p.story.abandon with settings := { p.story.settings with maxStepsPerTick := cap } } := by
      refine ⟨?_, fun c hc => by cases hc⟩
      rw [h.sound.story_sound.settings_eq]
    exact habandoned.begin id hscript hfirst
  · refine ⟨rfl, htables, (List.append_nil _).symm, (Int.add_zero _).symm, Script.Carried.nil, ?_⟩
    exact ⟨_, rfl, rfl, rfl, fun hhalted => by cases hhalted⟩

end Performance

end VisualNovel

import VisualNovel.Proofs.Script.Accepting
import VisualNovel.Proofs.Script.WellFormed

/-!
What compiling a text can come to: a script on which everything that plays it can rely, or a report
of what is wrong with the text.
-/

namespace VisualNovel

/-- The keys of the parameters that are given. -/
def Params.keys (p : Params) : List String :=
  (([("position", p.position.isSome), ("facing", p.facing.isSome), ("emotion", p.emotion.isSome),
    ("direction", p.direction.isSome), ("scale", p.scale.isSome), ("layer", p.layer.isSome),
    ("element", p.element.isSome), ("id", p.id.isSome), ("scaling", p.scaling.isSome),
    ("name", p.name.isSome), ("speaker", p.speaker.isSome), ("text", p.text.isSome),
    ("narrator", p.narrator.isSome), ("mainCharacter", p.mainCharacter.isSome)].filter
    (·.2)).map (·.1)) ++ p.extra.map (·.1)

/-- The parameters of a phrase: those that it always has, and those that it may have. -/
structure PhraseFrame where
  required : List String := []
  optional : List String := []

/-- The frame of the phrases that do this to such a target; a fade has one for each direction. -/
def phraseFrame? (target : TargetKind) (action : Action) (fade : Option Fade) :
    Option PhraseFrame :=
  match target, action, fade with
  | .scene, .jump, none => some { required := ["name"] }
  | .background, .change, none => some { required := ["id"] }
  | .gui, .change, none => some { required := ["element", "id"], optional := ["scaling"] }
  | .actor, .appear, none => some { optional := ["position", "facing", "emotion"] }
  | .actor, .disappear, none => some {}
  | .actor, .fade, some .fadeIn =>
    some { required := ["direction"], optional := ["position", "facing", "emotion"] }
  | .actor, .fade, some .fadeOut => some { required := ["direction"] }
  | .actor, .move, none => some { required := ["position"] }
  | .actor, .look, none => some { required := ["facing"] }
  | .animation, .appear, none => some { optional := ["position", "scale", "layer"] }
  | .animation, .fade, some _ => some { required := ["direction"] }
  | .animation, .move, none => some { required := ["position"] }
  | .animation, .look, none => some { required := ["facing"] }
  | _, _, _ => none

/-- A direction does what can be done to its target, with the parameters of its frame; a scale is
    not negative, and a layer is a whole number. -/
structure StageDirection.Framed (d : StageDirection) : Prop where
  keys : ∃ frame, phraseFrame? d.target.kind d.action d.params.direction = some frame ∧
    frame.required ⊆ d.params.keys ∧ d.params.keys ⊆ frame.required ++ frame.optional
  scale_nonneg : ∀ x, d.params.scale = some x → 0 ≤ x
  layer_whole : ∀ n, d.params.layer = some n → IsDouble n

open Script (TokenValue)
open PhraseOption

variable {vs : List TokenValue}

/-- The scale of an animation is spelled with a number that is not negative. -/
theorem Showing.scale_nonneg {s : Showing} (h : InAnyOrder s.options vs) {x : Float}
    (hx : s.scale = some x) : 0 ≤ x := by
  obtain ⟨piece, hpiece, -⟩ := h.exists_spelled (.scaled x) (by simp [Showing.options, hx])
  cases hpiece with
  | scaled _ hscale => exact hscale

theorem Showing.layer_whole {s : Showing} (h : InAnyOrder s.options vs) {n : Int}
    (hn : s.layer = some n) : IsDouble n := by
  obtain ⟨piece, hpiece, -⟩ := h.exists_spelled (.layered n) (by simp [Showing.options, hn])
  cases hpiece with
  | layered x _ hwhole hvalue => exact ⟨x, hwhole, hvalue⟩

/-- What an entrance says is among the parameters that a frame with an entrance allows. -/
theorem Entrance.keys_params (e : Entrance) (fade : Option Fade) :
    (e.params fade).keys ⊆
      fade.toList.map (fun _ => "direction") ++ ["position", "facing", "emotion"] := by
  obtain ⟨place, facing, emotion⟩ := e
  cases place <;> cases facing <;> cases emotion <;> cases fade <;>
    simp [Entrance.params, Params.keys]

theorem Showing.keys_params (s : Showing) : s.params.keys ⊆ ["position", "scale", "layer"] := by
  obtain ⟨position, scale, layer⟩ := s
  cases position <;> cases scale <;> cases layer <;> simp [Showing.params, Params.keys]

/-- Where nothing is said of scale and layer, the parameters need only be those of the frame. -/
theorem StageDirection.Framed.of_frame {d : StageDirection} {frame : PhraseFrame}
    (hframe : phraseFrame? d.target.kind d.action d.params.direction = some frame)
    (hrequired : frame.required ⊆ d.params.keys)
    (hkeys : d.params.keys ⊆ frame.required ++ frame.optional) (hscale : d.params.scale = none)
    (hlayer : d.params.layer = none) : d.Framed where
  keys := ⟨frame, hframe, hrequired, hkeys⟩
  scale_nonneg x hx := by simp [hscale] at hx
  layer_whole n hn := by simp [hlayer] at hn

/-- Each phrase has the parameters of its frame. -/
theorem Phrase.Spelled.framed {p : Phrase} (h : p.Spelled vs) : p.direction.Framed := by
  cases h with
  | @actorAppears name e vs hname h =>
    exact .of_frame rfl (List.nil_subset _) (e.keys_params none) rfl rfl
  | @actorFadesIn name e vs hname h =>
    refine .of_frame rfl ?_ (e.keys_params (some .fadeIn)) rfl rfl
    simp [direction, Entrance.params, Params.keys]
  | @animationAppears name s vs h =>
    exact ⟨⟨_, rfl, List.nil_subset _, s.keys_params⟩, fun _ => Showing.scale_nonneg h,
      fun _ => Showing.layer_whole h⟩
  | panelChanges panel h scaling =>
    refine .of_frame rfl ?_ ?_ rfl rfl
    all_goals cases scaling <;> simp [direction, Params.keys]
  | _ =>
    refine .of_frame rfl ?_ ?_ rfl rfl
    all_goals simp [direction, Params.keys]

/-- A phrase that goes to another scene says to which. -/
theorem Phrase.exists_name (p : Phrase) (h : p.direction.isJump) :
    ∃ name, p.direction.params.name = some (some name) := by
  cases p with
  | sceneBegins name => exact ⟨name, rfl⟩
  | _ => cases h

namespace Script

open Text

/-! ### Directives of a text -/

/-- Numbers among the tokens of a text are numbers of that text. -/
theorem tokens_parsed {text after : List Char} {ts : List Token}
    (h : tokens text = .ok (ts, after)) : ∀ t ∈ ts, t.value.Parsed :=
  tokens_forall (fun _ => trivial) (fun text after _ hx => ⟨text, after, hx⟩) (fun _ _ => trivial) h

theorem stageDirection_spelled {text : List Char} {d : StageDirection}
    (h : stageDirection text = .ok (.stage d)) :
    ∃ (p : Phrase) (vs : List TokenValue),
      p.Spelled vs ∧ (∀ v ∈ vs, v.Parsed) ∧ p.direction = d := by
  simp only [stageDirection, bind, Except.bind] at h
  split at h
  · cases h
  next out htokens =>
  obtain ⟨ts, after⟩ := out
  dsimp only at h
  split at h
  · cases h
  split at h
  · cases h
  split at h
  · cases h
  next direction hphrase =>
  cases h
  obtain ⟨p, hp, hd⟩ := (phrase_eq_ok_iff (tokens_parsed htokens)).1 hphrase
  exact ⟨p, _, hp, by simpa using tokens_parsed htokens, hd⟩

theorem logEntry_ne_stage {text : List Char} {d : StageDirection} :
    logEntry text ≠ .ok (.stage d) := by
  intro h
  unfold logEntry at h
  split at h
  · cases h
  simp only [bind, Except.bind] at h
  split at h
  · cases h
  split at h
  · split at h <;> cases h
  · cases h

theorem dialogue_ne_stage {text : List Char} {d : StageDirection} :
    dialogue text ≠ .ok (.stage d) := by
  intro h
  unfold dialogue at h
  simp only [bind, Except.bind] at h
  split at h
  · cases h
  split at h
  · split at h
    · split at h
      · cases h
      · split at h
        · split at h
          · cases h
          split at h <;> cases h
        · cases h
    · split at h
      · cases h
      split at h <;> cases h
  · cases h

/-- A stage direction that is read spells a phrase of the grammar, with numbers that stand in it. -/
theorem directive_spelled {text : List Char} {d : StageDirection}
    (h : directive text = .ok (.stage d)) :
    ∃ (p : Phrase) (vs : List TokenValue),
      p.Spelled vs ∧ (∀ v ∈ vs, v.Parsed) ∧ p.direction = d := by
  unfold directive at h
  split at h
  · exact stageDirection_spelled h
  · exact absurd h logEntry_ne_stage
  · exact absurd h dialogue_ne_stage

/-- The directives that were compiled so far stand in the text. -/
structure Progress.Written (p : Progress) : Prop where
  closed : ∀ scene ∈ p.closed, ∀ d ∈ scene.directives, ∃ text, directive text = .ok d.directive
  current : ∀ scene, p.current = some scene →
    ∀ d ∈ scene.reversed, ∃ text, directive text = .ok d.directive

theorem Progress.Written.step {source : Option String} {p p' : Progress} {line : Line}
    (hp : p.Written) (h : p.step source line = .ok p') : p'.Written := by
  unfold Progress.step at h
  dsimp only at h
  split at h
  · cases h
    exact ⟨hp.closed, hp.current⟩
  split at h
  · split at h
    · cases h
    split at h
    · cases h
    split at h
    · cases h
    cases h
    refine ⟨hp.closed, fun scene hscene => ?_⟩
    cases hscene
    simp
  · split at h
    · cases h
    next scene hscene =>
    split at h
    · cases h
      refine ⟨fun s hs => ?_, by simp⟩
      rcases List.mem_append.1 hs with hmem | hmem
      · exact hp.closed s hmem
      · cases List.mem_singleton.1 hmem
        exact fun d hd => hp.current scene hscene d (List.mem_reverse.1 hd)
    · split at h
      · cases h
      next d hd =>
      cases h
      refine ⟨hp.closed, fun s hs => ?_⟩
      cases hs
      exact List.forall_mem_cons.2 ⟨⟨_, hd⟩, hp.current scene hscene⟩

/-! ### Reports -/

/-- A flaw of the text: a mistake in a line, or a reference to what is not there. -/
def CompileError.Reported (e : CompileError) : Prop :=
  (∃ mistake, e = .malformed mistake) ∨ ∃ breach, e = .unsound breach

theorem Progress.step_reported {source : Option String} {p : Progress} {line : Line}
    {e : CompileError} (h : p.step source line = .error e) : e.Reported := by
  unfold Progress.step at h
  dsimp only at h
  split at h
  · cases h
  split at h
  · split at h
    · cases h
      exact .inl ⟨_, rfl⟩
    split at h
    · cases h
      exact .inl ⟨_, rfl⟩
    split at h
    · cases h
      exact .inr ⟨_, rfl⟩
    · cases h
  · split at h
    · cases h
      exact .inl ⟨_, rfl⟩
    split at h
    · cases h
    split at h
    · cases h
      exact .inl ⟨_, rfl⟩
    · cases h

theorem Progress.finish_reported {source : Option String} {p : Progress} {e : CompileError}
    (h : p.finish source = .error e) : e.Reported := by
  unfold Progress.finish at h
  split at h
  · cases h
    exact .inl ⟨_, rfl⟩
  · cases h
    exact .inl ⟨_, rfl⟩
  · split at h
    · cases h
      exact .inl ⟨_, rfl⟩
    · cases h

/-- The lines of a text either are compiled, each directive as it stands there, or one of them has
    a flaw. -/
theorem foldlM_step_outcome {source : Option String} {p : Progress} (hp : p.Written)
    (lines : List Line) :
    (∃ p', lines.foldlM (Progress.step source) p = .ok p' ∧ p'.Written) ∨
      ∃ e, lines.foldlM (Progress.step source) p = .error e ∧ e.Reported := by
  induction lines generalizing p with
  | nil => exact .inl ⟨p, rfl, hp⟩
  | cons line rest ih =>
    rw [List.foldlM_cons]
    cases hstep : p.step source line with
    | error e => exact .inr ⟨e, rfl, Progress.step_reported hstep⟩
    | ok next => exact ih (hp.step hstep)

theorem parse_outcome (text : String) (source : Option String) :
    (∃ s, parse text source = .ok s ∧
      ∀ scene ∈ s.scenes, ∀ d ∈ scene.directives, ∃ text, directive text = .ok d.directive) ∨
      ∃ e, parse text source = .error e ∧ e.Reported := by
  have hnone : Progress.Written {} := ⟨by simp, by simp⟩
  simp only [parse, bind, Except.bind]
  rcases @foldlM_step_outcome source {} hnone (linesOf (dropMark text.toList)) with
    ⟨p, hfold, hp⟩ | ⟨e, hfold, he⟩
  · rw [hfold]
    cases hfinish : p.finish source with
    | error e => exact .inr ⟨e, hfinish, Progress.finish_reported hfinish⟩
    | ok s =>
      refine .inl ⟨s, hfinish, ?_⟩
      unfold Progress.finish at hfinish
      split at hfinish
      · cases hfinish
      · cases hfinish
      · split at hfinish
        · cases hfinish
        · cases hfinish
          exact hp.closed
  · rw [hfold]
    exact .inr ⟨e, rfl, he⟩

/-- A loop that fails does so in one of its rounds. -/
theorem forM_eq_error {ε α : Type} {xs : List α} {f : α → Except ε Unit} {e : ε}
    (h : xs.forM f = .error e) : ∃ x ∈ xs, f x = .error e := by
  induction xs with
  | nil => cases h
  | cons x xs ih =>
    have h : (f x >>= fun _ => xs.forM f) = .error e := h
    cases hx : f x with
    | error e' =>
      rw [hx] at h
      cases h
      exact ⟨x, List.mem_cons_self, hx⟩
    | ok u =>
      rw [hx] at h
      obtain ⟨y, hy, hfail⟩ := ih h
      exact ⟨y, List.mem_cons_of_mem _ hy, hfail⟩

/-- Validation reports what it finds, if each directive stands in a text. -/
theorem validate_reported {s : Script} {e : CompileError} (h : s.validate = .error e)
    (hwritten : ∀ scene ∈ s.scenes, ∀ d ∈ scene.directives,
      ∃ text, directive text = .ok d.directive) : e.Reported := by
  unfold validate at h
  split at h
  · cases h
    exact .inr ⟨_, rfl⟩
  obtain ⟨scene, hscene, h⟩ := forM_eq_error h
  obtain ⟨d, hd, h⟩ := forM_eq_error h
  obtain ⟨text, htext⟩ := hwritten scene hscene d hd
  unfold checkDirective at h
  split at h
  · next direction hdirective =>
    rw [hdirective] at htext
    obtain ⟨p, vs, -, -, rfl⟩ := directive_spelled htext
    split at h
    · next hjump =>
      obtain ⟨name, hname⟩ := p.exists_name hjump
      rw [hname] at h
      dsimp only at h
      split at h
      · cases h
      · cases h
        exact .inr ⟨_, rfl⟩
    · cases h
  · cases h

/-- Each directive of a script that compiles was read off a line. -/
theorem compile_written {text : String} {source : Option String} {s : Script}
    (h : compile text source = .ok s) :
    ∀ scene ∈ s.scenes, ∀ d ∈ scene.directives, ∃ line, directive line = .ok d.directive := by
  unfold compile at h
  rcases parse_outcome text source with ⟨s', hparse, hwritten⟩ | ⟨e, hparse, -⟩
  · rw [hparse] at h
    change (s'.validate >>= fun _ => pure s') = .ok s at h
    cases hvalid : s'.validate with
    | ok u =>
      rw [hvalid] at h
      cases h
      exact hwritten
    | error e =>
      rw [hvalid] at h
      cases h
  · rw [hparse] at h
    cases h

/-- Why a text does not compile is reported. -/
theorem compile_reported {text : String} {source : Option String} {e : CompileError}
    (h : compile text source = .error e) : e.Reported := by
  unfold compile at h
  rcases parse_outcome text source with ⟨s, hparse, hwritten⟩ | ⟨e', hparse, he⟩
  · rw [hparse] at h
    change (s.validate >>= fun _ => pure s) = .error e at h
    cases hvalid : s.validate with
    | ok u =>
      rw [hvalid] at h
      cases h
    | error e' =>
      rw [hvalid] at h
      cases h
      exact validate_reported hvalid hwritten
  · rw [hparse] at h
    cases h
    exact he

/-- Compiling a text gives a script that can be relied on or a report, and nothing else. -/
theorem compile_outcome (text : String) (source : Option String) :
    (∃ s, compile text source = .ok s ∧ s.WellFormed ∧
      ∀ scene ∈ s.scenes, ∀ d ∈ scene.directives, ∀ direction,
        d.directive = .stage direction → direction.Framed) ∨
    (∃ mistake, compile text source = .error (.malformed mistake)) ∨
    ∃ breach, compile text source = .error (.unsound breach) := by
  cases hcompile : compile text source with
  | ok s =>
    refine .inl ⟨s, rfl, Compiled.wellFormed ⟨text, source, hcompile⟩, ?_⟩
    intro scene hscene d hd direction hdirective
    obtain ⟨line, hline⟩ := compile_written hcompile scene hscene d hd
    rw [hdirective] at hline
    obtain ⟨p, vs, hp, -, rfl⟩ := directive_spelled hline
    exact hp.framed
  | error e =>
    rcases compile_reported hcompile with ⟨mistake, rfl⟩ | ⟨breach, rfl⟩
    · exact .inr (.inl ⟨mistake, rfl⟩)
    · exact .inr (.inr ⟨breach, rfl⟩)

end Script

end VisualNovel

import VisualNovel.Proofs.Script.Refusing

/-!
The round trip of a script. What is written for a well-formed script compiles to the same content
exactly if no coordinate and no scale is written with an exponent.
-/

namespace VisualNovel.Script

open Text

/-! ### Content -/

/-- The scenes of two scripts are pairwise the same. -/
def SameScenes (scenes scenes' : List Scene) : Prop :=
  List.Forall₂ (fun scene scene' => scene.same scene') scenes scenes'

variable {scenes scenes' : List Scene}

theorem SameScenes.names (h : SameScenes scenes scenes') :
    scenes'.map (·.name) = scenes.map (·.name) := by
  induction h with
  | nil => rfl
  | cons hsame _ ih => rw [List.map_cons, List.map_cons, name_of_same hsame, ih]

/-- Under distinct names each scene is found again. -/
theorem SameScenes.find? (h : SameScenes scenes scenes') (hnames : (scenes.map (·.name)).Nodup) :
    ∀ scene ∈ scenes, ∃ other,
      scenes'.find? (fun other => other.name == scene.name) = some other ∧ scene.same other := by
  induction h with
  | nil => simp
  | @cons scene scene' rest rest' hsame hrest ih =>
    rw [List.map_cons, List.nodup_cons] at hnames
    refine List.forall_mem_cons.2 ⟨⟨scene', ?_, hsame⟩, fun other hother => ?_⟩
    · simp [name_of_same hsame]
    · have hne : scene'.name ≠ other.name := fun heq =>
        hnames.1 (by rw [← name_of_same hsame, heq]; exact List.mem_map_of_mem hother)
      rw [List.find?_cons_of_neg (by simpa using hne)]
      exact ih hnames.2 other hother

theorem SameScenes.exists_of_mem (h : SameScenes scenes scenes') :
    ∀ scene' ∈ scenes', ∃ scene ∈ scenes, scene.same scene' := by
  induction h with
  | nil => simp
  | @cons scene scene' rest rest' hsame hrest ih =>
    refine List.forall_mem_cons.2 ⟨⟨scene, List.mem_cons_self, hsame⟩, fun other hother => ?_⟩
    obtain ⟨scene'', hmem, hsame'⟩ := ih other hother
    exact ⟨scene'', List.mem_cons_of_mem _ hmem, hsame'⟩

theorem SameScenes.length_eq (h : SameScenes scenes scenes') : scenes.length = scenes'.length :=
  List.Forall₂.length_eq h

theorem SameScenes.same {s t : Script} (h : SameScenes s.scenes t.scenes)
    (hnames : (s.scenes.map (·.name)).Nodup) : s.same t := by
  unfold Script.same
  rw [Bool.and_eq_true, List.all_eq_true]
  refine ⟨by simpa using h.length_eq, fun scene hscene => ?_⟩
  obtain ⟨other, hother, hsame⟩ := h.find? hnames scene hscene
  have hscene? : t.scene? scene.name = some other := hother
  rw [hscene?]
  exact hsame

/-! ### Jumps -/

theorem hasScene_iff {s : Script} {name : String} :
    s.hasScene name ↔ name ∈ s.scenes.map (·.name) := by
  simp [hasScene, scene?, List.find?_isSome]

/-- Equal directions do the same to the same target, under the same name. -/
theorem eq_of_beq_stage {d d' : StageDirection} (h : Directive.stage d == .stage d') :
    d.target = d'.target ∧ d.action = d'.action ∧ d.params.name = d'.params.name := by
  obtain ⟨target, action, params⟩ := d
  obtain ⟨target', action', params'⟩ := d'
  have hstage : (⟨target, action, params⟩ : StageDirection) == ⟨target', action', params'⟩ := h
  replace hstage : instBEqStageDirection.beq ⟨target, action, params⟩ ⟨target', action', params'⟩ :=
    hstage
  simp only [instBEqStageDirection.beq, Bool.and_eq_true, beq_iff_eq] at hstage
  obtain ⟨htarget, haction, hparams⟩ := hstage
  replace hparams : instBEqParams.beq params params' := hparams
  simp only [instBEqParams.beq, Bool.and_eq_true, beq_iff_eq] at hparams
  exact ⟨htarget, haction, hparams.2.2.2.2.2.2.2.2.2.1⟩

/-- A direction that is equal to one of a script jumps within a script with the same scenes. -/
theorem jumpsWithin_of_beq {s t : Script} (hnames : t.scenes.map (·.name) = s.scenes.map (·.name))
    {d d' : StageDirection} (hbeq : Directive.stage d == .stage d') (h : s.JumpsWithin d) :
    t.JumpsWithin d' := by
  obtain ⟨htarget, haction, hname⟩ := eq_of_beq_stage hbeq
  intro hjump
  obtain ⟨target, htargetName, hscene⟩ := h (by rwa [StageDirection.isJump, htarget, haction])
  refine ⟨target, by rw [← hname, htargetName], ?_⟩
  rwa [hasScene_iff, hnames, ← hasScene_iff]

/-- Each directive of a scene is equal to one of any scene that is the same. -/
theorem exists_beq_of_same {scene scene' : Scene} (h : scene.same scene') :
    ∀ d' ∈ scene'.directives, ∃ d ∈ scene.directives, d.directive == d'.directive := by
  simp only [Scene.same, Bool.and_eq_true] at h
  obtain ⟨-, hdirectives⟩ := h
  generalize scene.directives = ds at *
  generalize scene'.directives = ds' at *
  induction ds generalizing ds' with
  | nil => cases ds' <;> simp_all
  | cons d ds ih =>
    cases ds' with
    | nil => simp
    | cons d' ds' =>
      simp only [List.map_cons, List.cons_beq_cons, Bool.and_eq_true] at hdirectives
      refine List.forall_mem_cons.2 ⟨⟨d, List.mem_cons_self, hdirectives.1⟩, fun other hother => ?_⟩
      obtain ⟨d'', hmem, hbeq⟩ := ih ds' hdirectives.2 other hother
      exact ⟨d'', List.mem_cons_of_mem _ hmem, hbeq⟩

/-- A dialogue line or a log entry is equal to no direction. -/
theorem exists_stage_of_beq {d : Directive} {d' : StageDirection} (h : d == .stage d') :
    ∃ d₀, d = .stage d₀ := by
  cases d with
  | stage d => exact ⟨d, rfl⟩
  | dialogue d => cases (show false = true from h)
  | log message => cases (show false = true from h)

/-- What is the same as a well-formed script jumps within itself, too. -/
theorem SameScenes.validate {s t : Script} (hs : s.WellFormed) (h : SameScenes s.scenes t.scenes) :
    t.validate = .ok () := by
  refine validate_eq_ok_iff.2 ⟨?_, fun scene' hscene' d' hd' direction' hdirection' => ?_⟩
  · intro hnil
    have hlen := h.length_eq
    rw [hnil] at hlen
    exact hs.ne_nil (List.length_eq_zero_iff.1 hlen)
  · obtain ⟨scene, hscene, hsame⟩ := h.exists_of_mem scene' hscene'
    obtain ⟨d, hd, hbeq⟩ := exists_beq_of_same hsame d' hd'
    rw [hdirection'] at hbeq
    obtain ⟨direction, hdirection⟩ := exists_stage_of_beq hbeq
    rw [hdirection] at hbeq
    exact jumpsWithin_of_beq h.names hbeq (hs.jumps_within scene hscene d hd direction hdirection)

/-! ### The round trip -/

/-- What is written for a plain script compiles to the same content. -/
theorem exists_compile_eq_ok {s : Script} (hs : s.WellFormed) (hplain : s.Plain)
    {indent : List Char} (hindent : ∀ c ∈ indent, isBlank c) (hfeed : '\n' ∉ indent) {out : String}
    (hout : out.toList = unlines (s.lines indent)) :
    ∃ t, compile out = .ok t ∧ SameScenes s.scenes t.scenes := by
  have hscenes : ∀ scene ∈ s.scenes, scene.WellFormed ∧ ∀ d ∈ scene.directives, d.directive.Plain :=
    fun scene hscene => ⟨hs.scenes scene hscene, plain_iff.1 hplain scene hscene⟩
  obtain ⟨scenes, last, hsame, hfold⟩ := fold_scenes none hindent (p := {}) hscenes rfl
    hs.names_nodup 1 0
  have hsame : SameScenes s.scenes scenes := hsame
  have hne : scenes.isEmpty = false := by
    rw [List.isEmpty_eq_false_iff, ← List.length_pos_iff, ← hsame.length_eq, List.length_pos_iff]
    exact hs.ne_nil
  have hparse : parse out none = .ok ⟨scenes, ""⟩ := by
    unfold parse
    rw [hout, linesOf_written hs hfeed]
    simp only [Script.lines, hfold, bind, Except.bind, Progress.finish, List.nil_append, hne]
    rfl
  refine ⟨⟨scenes, ""⟩, ?_, hsame⟩
  unfold compile
  rw [hparse]
  show (validate ⟨scenes, ""⟩ >>= fun _ => .ok _) = _
  rw [SameScenes.validate hs hsame]
  rfl

/-- What is written for a script compiles to an equal script, with its scenes in the same order. -/
def CompilesBack (s : Script) (indent : String) : Prop :=
  ∃ out t, s.written indent = .ok out ∧ compile out = .ok t ∧ s.same t ∧
    t.scenes.map (·.name) = s.scenes.map (·.name)

/-- A well-formed script whose coordinates and scales are plain comes back from its text, whatever
    blanks its directives are indented with. -/
theorem WellFormed.compilesBack {s : Script} (hs : s.WellFormed) (hplain : s.Plain)
    {indent : String} (hindent : ∀ c ∈ indent.toList, isBlank c) (hfeed : '\n' ∉ indent.toList) :
    s.CompilesBack indent := by
  obtain ⟨out, hwritten, hout⟩ := written_eq hs indent
  obtain ⟨t, hcompile, hsame⟩ := exists_compile_eq_ok hs hplain hindent hfeed hout
  exact ⟨out, t, hwritten, hcompile, hsame.same hs.names_nodup, hsame.names⟩

/-- Two scenes that were put together by hand, with an emotion, a variable, an escape, a moving
    picture and a jump. -/
theorem WellFormed.compilesBack_farewell :
    let sparks : Phrase :=
      .animationAppears "sparks" { position := some (25, 5), scale := some 2, layer := some 3 }
    let farewell : Script := { scenes := [
      { name := "door", directives := [
        ⟨.dialogue ⟨⟨.mainCharacter, none⟩, [.literal "Bye, ", .variable "friend", .literal "\n"],
          some "sad"⟩, 0⟩,
        ⟨.stage sparks.direction, 0⟩,
        ⟨.stage (Phrase.sceneBegins "street").direction, 0⟩] },
      { name := "street", directives := [⟨.log [.literal "The \"end\""], 0⟩] }] }
    farewell.CompilesBack "\t" := by
  intro sparks farewell
  have hname : ∀ name ∈ ["door", "street", "sad", "friend", "sparks"], IsName name := by
    show ∀ name ∈ ["door", "street", "sad", "friend", "sparks"], isName name.toList
    decide
  have hnumber : ∀ x ∈ [(25 : Float), 5, 2], Number.isWhole x ∧ ¬ x < 0 := by decide +kernel
  have hlayer : IsDouble 3 := ⟨3, by decide +kernel, by decide +kernel⟩
  have hbye : Dialogue.WellFormed ⟨⟨.mainCharacter, none⟩,
      [.literal "Bye, ", .variable "friend", .literal "\n"], some "sad"⟩ := by
    refine ⟨rfl, fun emotion h => ?_, ⟨?_, fun name h => ?_⟩⟩
    · cases h
      exact hname "sad" (by decide)
    · simp [Expression.IsNormal, Expression.MayFollow]
    · exact hname name (by simp_all [Expression.variableNames])
  have hend : Expression.WellFormed [.literal "The \"end\""] :=
    ⟨by simp [Expression.IsNormal, Expression.MayFollow], by simp [Expression.variableNames]⟩
  have hsparks : sparks.Valid := by
    refine ⟨hname "sparks" (by decide), ⟨fun x h => ?_, fun n h => ?_⟩⟩
    · cases h
      exact (hnumber 2 (by simp)).2
    · cases h
      exact hlayer
  have hvalid : farewell.validate = .ok () := rfl
  have hwell : farewell.WellFormed := by
    refine ⟨by simp [farewell], by simp [farewell], ?_, (validate_eq_ok_iff.1 hvalid).2⟩
    simp only [farewell, List.forall_mem_cons]
    refine ⟨⟨hname "door" (by decide), ?_⟩, ⟨hname "street" (by decide), ?_⟩, by simp⟩
    · simp only [List.forall_mem_cons]
      exact ⟨hbye, ⟨sparks, hsparks, rfl⟩, ⟨.sceneBegins "street", trivial, rfl⟩, by simp⟩
    · simp only [List.forall_mem_cons]
      exact ⟨hend, by simp⟩
  have hplain : farewell.Plain := fun x hx =>
    Number.IsPlain.of_isWhole (hnumber x hx).1
  exact hwell.compilesBack hplain (List.all_eq_true.1 (by decide)) (by decide)

/-- A script that was compiled is always written, and comes back from its text exactly if its
    coordinates and scales are plain. If one is not, the text is refused. -/
theorem compilesBack_iff_plain {text : String} {source : Option String} {s : Script}
    (h : compile text source = .ok s) :
    (s.CompilesBack "    " ↔ s.Plain) ∧
      (¬ s.Plain → ∃ out e, s.written = .ok out ∧ compile out = .error e) := by
  have hs : s.WellFormed := Compiled.wellFormed ⟨text, source, h⟩
  obtain ⟨out, hwritten, hout⟩ := written_eq hs "    "
  have hindent : ∀ c ∈ "    ".toList, isBlank c := List.all_eq_true.1 (by decide)
  have hfeed : '\n' ∉ "    ".toList := by decide
  have hrefused (hnot : ¬ s.Plain) : ∃ e, compile out = .error e :=
    compile_of_not_plain hs hnot hindent hfeed hout
  refine ⟨⟨fun hback => ?_, fun hplain => ?_⟩, fun hnot => ?_⟩
  · obtain ⟨out', t, hwritten', hcompile, -⟩ := hback
    cases hwritten.symm.trans hwritten'
    by_contra hnot
    obtain ⟨e, he⟩ := hrefused hnot
    cases hcompile.symm.trans he
  · obtain ⟨t, hcompile, hsame⟩ := exists_compile_eq_ok hs hplain hindent hfeed hout
    exact ⟨out, t, hwritten, hcompile, hsame.same hs.names_nodup, hsame.names⟩
  · obtain ⟨e, he⟩ := hrefused hnot
    exact ⟨out, e, hwritten, he⟩

/-- A small coordinate is read where it is spelled out, but it is written with an exponent. -/
theorem not_compilesBack_small_coordinate :
    ∃ s, compile "SCENE a\n(Animation s appears at 0.0000001 5)\nCURTAIN\n" = .ok s ∧
      ¬ s.CompilesBack "    " ∧ ∃ out e, s.written = .ok out ∧ compile out = .error e := by
  generalize htext : "SCENE a\n(Animation s appears at 0.0000001 5)\nCURTAIN\n" = text
  have hsmall : (compile text).toOption.any (fun s => s.numbers.any fun x =>
      !Number.isWhole x && decide ('e' ∈ (Number.shortest x).toList)) := by
    rw [← htext]
    decide +kernel
  cases hcompile : compile text with
  | error e => simp [hcompile, Except.toOption] at hsmall
  | ok s =>
    rw [hcompile] at hsmall
    obtain ⟨x, hx, hexponent⟩ := List.any_eq_true.1 (show s.numbers.any _ from hsmall)
    simp only [Bool.and_eq_true, Bool.not_eq_true', decide_eq_true_eq] at hexponent
    have hnot : ¬ s.Plain := fun hplain => Number.not_isPlain hexponent.1 hexponent.2 (hplain x hx)
    have hback := compilesBack_iff_plain hcompile
    exact ⟨s, rfl, fun h => hnot (hback.1.1 h), hback.2 hnot⟩

end VisualNovel.Script

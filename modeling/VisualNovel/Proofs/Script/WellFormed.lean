import VisualNovel.Proofs.Script.Phrase
import VisualNovel.Proofs.Script.Quoted
import VisualNovel.Proofs.Script.Validation

/-!
Well-formed scripts: those that the script language can express, whether they were compiled or put
together by hand. What is compiled is well formed.
-/

namespace VisualNovel

/-- A character that speaks has a name that can be told apart from the other speakers' words and
    from the beginning of a scene. The other speakers have no name. -/
def Speaker.WellFormed (s : Speaker) : Prop :=
  match s.kind with
  | .character => ∃ name, s.name = some name ∧ IsName name ∧ name ∉ ["MC", "info", "SCENE"]
  | _ => s.name = none

structure Dialogue.WellFormed (d : Dialogue) : Prop where
  speaker : d.speaker.WellFormed
  emotion_named : ∀ emotion, d.emotion = some emotion → IsName emotion
  text : d.text.WellFormed

/-- A directive that the language can express. -/
def Directive.WellFormed : Directive → Prop
  | .dialogue d => d.WellFormed
  | .log message => message.WellFormed
  | .stage d => ∃ p : Phrase, p.Valid ∧ p.direction = d

structure Scene.WellFormed (s : Scene) : Prop where
  named : IsName s.name
  directives : ∀ d ∈ s.directives, d.directive.WellFormed

/-- A script that the language can express. Its scenes have distinct names, and its jumps go to
    scenes of its own. -/
structure Script.WellFormed (s : Script) : Prop where
  ne_nil : s.scenes ≠ []
  names_nodup : (s.scenes.map (·.name)).Nodup
  scenes : ∀ scene ∈ s.scenes, scene.WellFormed
  jumps_within : ∀ scene ∈ s.scenes, ∀ d ∈ scene.directives, ∀ direction,
    d.directive = .stage direction → s.JumpsWithin direction

namespace Script

open Text

/-! ### Directives -/

/-- A token of a text is a quoted expression, a number that the text has there, or a name. -/
theorem tokens_forall {P : TokenValue → Prop} (htext : ∀ e, P (.text e))
    (hnumbers : ∀ text after x, numberAt? text = some (x, after) → P (.number x))
    (hwords : ∀ w, IsName w → P (.word w)) {text after : List Char} {ts : List Token}
    (h : tokens text = .ok (ts, after)) : ∀ t ∈ ts, P t.value := by
  fun_induction tokens text generalizing ts with
  | case1 => cases h
  | case2 => cases h; simp
  | case3 => cases h
  | case4 text c rest htrim hclose hquote e after' hread raw =>
    rename_i ih
    obtain ⟨⟨more, tail⟩, hmore, heq⟩ := map_eq_ok.1 h
    cases heq
    exact List.forall_mem_cons.2 ⟨htext e, ih hmore⟩
  | case5 text c rest htrim hclose hquote x after' hnumber raw =>
    rename_i ih
    obtain ⟨⟨more, tail⟩, hmore, heq⟩ := map_eq_ok.1 h
    cases heq
    exact List.forall_mem_cons.2 ⟨hnumbers _ _ x hnumber, ih hmore⟩
  | case6 text c rest htrim hclose hquote hnumber hstart word =>
    rename_i ih
    obtain ⟨⟨more, tail⟩, hmore, heq⟩ := map_eq_ok.1 h
    cases heq
    refine List.forall_mem_cons.2 ⟨hwords _ ?_, ih hmore⟩
    show isName (String.ofList word).toList
    rw [String.toList_ofList]
    refine isName_iff.2 ⟨⟨c, _, rfl, hstart⟩, ?_⟩
    refine List.forall_mem_cons.2 ⟨isNameChar_of_isNameStart hstart, fun d hd => ?_⟩
    exact List.all_eq_true.1 List.all_takeWhile d hd
  | case7 => cases h

/-- Words among the tokens of a text are names. -/
theorem tokens_named {text after : List Char} {ts : List Token}
    (h : tokens text = .ok (ts, after)) : ∀ t ∈ ts, t.value.Named :=
  tokens_forall (fun _ => trivial) (fun _ _ _ _ => trivial) (fun _ hw => hw) h

/-- A stage direction that is read says a phrase. -/
theorem stageDirection_sound {text : List Char} {d : Directive}
    (h : stageDirection text = .ok d) : d.WellFormed := by
  simp only [stageDirection, bind, Except.bind] at h
  split at h
  · cases h
  · next out htokens =>
    obtain ⟨ts, after⟩ := out
    dsimp only at h
    split at h
    · cases h
    · split at h
      · cases h
      · split at h
        · cases h
        · next direction hphrase =>
          cases h
          exact phrase_sound hphrase (tokens_named htokens)

theorem logEntry_sound {text : List Char} {d : Directive} (h : logEntry text = .ok d) :
    d.WellFormed := by
  unfold logEntry at h
  split at h
  · cases h
  · next quoted _ =>
    simp only [bind, Except.bind] at h
    split at h
    · cases h
    · next out hread =>
      obtain ⟨e, rest⟩ := out
      dsimp only at h
      split at h
      · split at h
        · cases h
        · cases h
          exact readQuoted_wellFormed hread
      · cases h

/-- A line whose first word is `SCENE` opens a scene, whatever blanks it ends with. -/
theorem opensScene_of_takeWhile {text : List Char}
    (h : text.takeWhile isNameChar = "SCENE".toList) : opensScene (trimEnd text) := by
  have hsplit : text = "SCENE".toList ++ text.dropWhile isNameChar := by
    rw [← h, List.takeWhile_append_dropWhile]
  have hends := ends_dropWhile isNameChar text
  generalize text.dropWhile isNameChar = rest at hsplit hends
  have htrim : ∃ more, trimEnd text = "SCENE".toList ++ more ∧ more <+: rest := by
    have hkept : "SCENE".toList <+: trimEnd text := by
      unfold trimEnd
      rw [hsplit, List.reverse_append, List.dropWhile_append]
      split
      · simp [isBlank]
      · simp
    obtain ⟨more, hmore⟩ := hkept
    refine ⟨more, hmore.symm, ?_⟩
    have hprefix := trimEnd_prefix text
    rwa [← hmore, hsplit, List.prefix_append_right_inj] at hprefix
  obtain ⟨more, heq, hmore⟩ := htrim
  rw [heq]
  show !(more.head?.map isNameChar).getD false
  cases more with
  | nil => rfl
  | cons c more =>
    obtain ⟨tail, rfl⟩ := hmore
    simpa using hends

/-- The part of a line from the spoken text on, once its name and its emotion are read. -/
private theorem spoken_sound {name spoken : List Char} {emotion : Option String} {d : Directive}
    (hname : isName name) (hscene : String.ofList name ≠ "SCENE")
    (hemotion : ∀ e, emotion = some e → IsName e)
    (h : (do
      let (e, rest) ← readQuoted spoken
      expectEnd rest
      let speaker : Speaker :=
        match (Vocabulary.ofWord? (String.ofList name) : Option SpeakerKind) with
        | some .mainCharacter => ⟨.mainCharacter, none⟩
        | some .narrator => ⟨.narrator, none⟩
        | _ => ⟨.character, some (String.ofList name)⟩
      return .dialogue { speaker := speaker, text := e, emotion := emotion } :
        Except Flaw Directive) = .ok d) : d.WellFormed := by
  have hnamed : IsName (String.ofList name) := by
    show isName (String.ofList name).toList
    rw [String.toList_ofList]
    exact hname
  simp only [bind, Except.bind] at h
  split at h
  · cases h
  next out hread =>
  split at h
  · cases h
  cases h
  refine ⟨?_, hemotion, readQuoted_wellFormed hread⟩
  dsimp only
  split
  · exact (rfl : (none : Option String) = none)
  · exact (rfl : (none : Option String) = none)
  · next hmain hinfo =>
    refine ⟨_, rfl, hnamed, ?_⟩
    simp only [List.mem_cons, List.not_mem_nil, or_false, not_or]
    refine ⟨fun heq => hmain ?_, fun heq => hinfo ?_, hscene⟩
    · rw [heq]
      rfl
    · rw [heq]
      rfl

/-- A line of dialogue that is read is well formed. It does not open a scene, so nobody of that
    name can speak it. -/
theorem dialogue_sound {text : List Char} {d : Directive} (h : dialogue text = .ok d)
    (hopens : opensScene (trimEnd text) = false) : d.WellFormed := by
  have hscene : String.ofList (text.takeWhile isNameChar) ≠ "SCENE" := by
    intro heq
    have hword := congrArg String.toList heq
    rw [String.toList_ofList] at hword
    rw [opensScene_of_takeWhile hword] at hopens
    cases hopens
  unfold dialogue at h
  dsimp only at h
  split at h
  · cases h
  next hname =>
  have hisName : isName (text.takeWhile isNameChar) := by simpa using hname
  split at h
  · split at h
    · split at h
      · cases h
      · next inside after _ =>
        split at h
        · next hinside =>
          refine spoken_sound hisName hscene (fun e he => ?_) h
          cases he
          show isName (String.ofList (trim inside)).toList
          rw [String.toList_ofList]
          exact hinside
        · cases h
    · exact spoken_sound hisName hscene (by simp) h
  · cases h

/-- A directive that is read is well formed. -/
theorem directive_sound {text : List Char} {d : Directive} (h : directive text = .ok d)
    (hopens : opensScene (trimEnd text) = false) : d.WellFormed := by
  unfold directive at h
  split at h
  · exact stageDirection_sound h
  · exact logEntry_sound h
  · exact dialogue_sound h hopens

/-! ### Scripts -/

/-- What has been compiled of a text so far can be expressed in the language, and the names of its
    scenes, the open one included, are distinct. -/
structure Progress.Sound (p : Progress) : Prop where
  closed : ∀ scene ∈ p.closed, scene.WellFormed
  names_nodup : (p.closed.map (·.name)).Nodup
  current_named : ∀ scene, p.current = some scene → IsName scene.name
  current_new : ∀ scene, p.current = some scene → scene.name ∉ p.closed.map (·.name)
  current_directives : ∀ scene, p.current = some scene →
    ∀ d ∈ scene.reversed, d.directive.WellFormed

theorem isName_of_sceneName? {text name : List Char} (h : sceneName? text = some name) :
    isName name := by
  unfold sceneName? at h
  split at h
  · split at h
    · next hname =>
      cases h
      exact hname
    · cases h
  · cases h

/-- One more line keeps what was compiled so far in order. -/
theorem Progress.Sound.step {source : Option String} {p p' : Progress} {line : Line}
    (hp : p.Sound) (h : p.step source line = .ok p') : p'.Sound := by
  unfold Progress.step at h
  dsimp only at h
  split at h
  · cases h
    exact ⟨hp.closed, hp.names_nodup, hp.current_named, hp.current_new, hp.current_directives⟩
  split at h
  · split at h
    · cases h
    split at h
    · cases h
    next name hname =>
    split at h
    · cases h
    next hnew =>
    cases h
    refine ⟨hp.closed, hp.names_nodup, fun scene hscene => ?_, fun scene hscene => ?_,
      fun scene hscene => ?_⟩
    · cases hscene
      show isName (String.ofList name).toList
      rw [String.toList_ofList]
      exact isName_of_sceneName? hname
    · cases hscene
      simpa using hnew
    · cases hscene
      simp
  · next hopens =>
    split at h
    · cases h
    next scene hscene =>
    split at h
    · cases h
      refine ⟨?_, ?_, by simp, by simp, by simp⟩
      · intro s hs
        rcases List.mem_append.1 hs with hmem | hmem
        · exact hp.closed s hmem
        · cases List.mem_singleton.1 hmem
          refine ⟨hp.current_named scene hscene, fun d hd => ?_⟩
          exact hp.current_directives scene hscene d (List.mem_reverse.1 hd)
      · rw [List.map_append, List.map_singleton]
        refine List.nodup_append.2 ⟨hp.names_nodup, by simp, ?_⟩
        rintro a ha b hb rfl
        rw [List.mem_singleton.1 hb] at ha
        exact hp.current_new scene hscene ha
    · split at h
      · cases h
      next d hd =>
      cases h
      refine ⟨hp.closed, hp.names_nodup, fun s hs => ?_, fun s hs => ?_, fun s hs => ?_⟩
      · cases hs
        exact hp.current_named scene hscene
      · cases hs
        exact hp.current_new scene hscene
      · cases hs
        refine List.forall_mem_cons.2 ⟨directive_sound hd ?_, ?_⟩
        · simpa using hopens
        · exact hp.current_directives scene hscene

theorem Progress.Sound.foldlM_step {source : Option String} {p p' : Progress} {lines : List Line}
    (hp : p.Sound) (h : lines.foldlM (Progress.step source) p = .ok p') : p'.Sound := by
  induction lines generalizing p with
  | nil =>
    cases h
    exact hp
  | cons line rest ih =>
    rw [List.foldlM_cons] at h
    cases hstep : p.step source line with
    | error e =>
      rw [hstep] at h
      cases h
    | ok next =>
      rw [hstep] at h
      exact ih (hp.step hstep) h

/-- A compiled script can be expressed in the language, as it just was. -/
theorem Compiled.wellFormed {s : Script} (h : s.Compiled) : s.WellFormed := by
  obtain ⟨hne, hjumps⟩ := validate_eq_ok_iff.1 h.validate
  obtain ⟨text, source, hcompile⟩ := h
  simp only [compile, parse, bind, Except.bind] at hcompile
  split at hcompile
  · cases hcompile
  next script hparse =>
  split at hcompile
  · cases hcompile
  cases hcompile
  split at hparse
  · cases hparse
  next p hfold =>
  have hp : p.Sound :=
    Progress.Sound.foldlM_step ⟨by simp, by simp, by simp, by simp, by simp⟩ hfold
  unfold Progress.finish at hparse
  split at hparse
  · cases hparse
  · cases hparse
  · split at hparse
    · cases hparse
    · cases hparse
      exact ⟨hne, hp.names_nodup, hp.closed, hjumps⟩

end Script

end VisualNovel

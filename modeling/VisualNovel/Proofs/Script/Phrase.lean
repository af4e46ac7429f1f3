import VisualNovel.Proofs.Script.Reading
import VisualNovel.Proofs.Text.Names

/-!
The phrases of the grammar, each with what the writer chooses in it. `Phrase.direction` is the
direction that a phrase says, and every direction that is read off tokens is that of a phrase.
-/

namespace VisualNovel

/-- How an actor comes on stage, as far as the writer says it. -/
structure Entrance where
  place : Option Position := none
  facing : Option Facing := none
  emotion : Option String := none

/-- How an animation appears, as far as the writer says it. -/
structure Showing where
  position : Option (Float × Float) := none
  scale : Option Float := none
  layer : Option Int := none

inductive Phrase where
  | sceneBegins (name : String)
  | backgroundChanges (id : String)
  | panelChanges (panel : Panel) (id : String) (scaling : Option Scaling)
  | actorAppears (name : String) (e : Entrance)
  | actorDisappears (name : String)
  | actorFadesIn (name : String) (e : Entrance)
  | actorFadesOut (name : String)
  | actorMoves (name : String) (place : Position)
  | actorLooks (name : String) (facing : Facing)
  | animationAppears (name : String) (s : Showing)
  | animationFades (name : String) (fade : Fade)
  | animationMoves (name : String) (x y : Float)
  | animationLooks (name : String) (facing : Facing)

/-- A double holds this whole number exactly. -/
def IsDouble (n : Int) : Prop := ∃ x, Number.isWhole x ∧ Number.truncate x = .ok n

/-- The parameters of a phrase with an entrance. -/
def Entrance.params (e : Entrance) (direction : Option Fade) : Params :=
  { position := e.place.map .place
    facing := e.facing
    emotion := e.emotion.map some
    direction }

/-- The parameters of a phrase in which an animation appears. -/
def Showing.params (s : Showing) : Params :=
  { position := s.position.map fun (x, y) => .coords [x, y]
    scale := s.scale
    layer := s.layer }

/-- The direction that a phrase says. -/
def Phrase.direction : Phrase → StageDirection
  | sceneBegins name => ⟨⟨.scene, none⟩, .jump, { name := some (some name) }⟩
  | backgroundChanges id => ⟨⟨.background, none⟩, .change, { id := some (some id) }⟩
  | panelChanges panel id scaling =>
    ⟨⟨.gui, some (Vocabulary.word panel)⟩, .change,
      { element := some panel, id := some (some id), scaling }⟩
  | actorAppears name e => ⟨⟨.actor, some name⟩, .appear, e.params none⟩
  | actorDisappears name => ⟨⟨.actor, some name⟩, .disappear, {}⟩
  | actorFadesIn name e => ⟨⟨.actor, some name⟩, .fade, e.params (some .fadeIn)⟩
  | actorFadesOut name => ⟨⟨.actor, some name⟩, .fade, { direction := some .fadeOut }⟩
  | actorMoves name place => ⟨⟨.actor, some name⟩, .move, { position := some (.place place) }⟩
  | actorLooks name facing => ⟨⟨.actor, some name⟩, .look, { facing := some facing }⟩
  | animationAppears name s => ⟨⟨.animation, some name⟩, .appear, s.params⟩
  | animationFades name fade => ⟨⟨.animation, some name⟩, .fade, { direction := some fade }⟩
  | animationMoves name x y =>
    ⟨⟨.animation, some name⟩, .move, { position := some (.coords [x, y]) }⟩
  | animationLooks name facing => ⟨⟨.animation, some name⟩, .look, { facing := some facing }⟩

/-- The words that begin phrases about something else than an actor. -/
def Phrase.heads : List String := ["Scene", "Background", "GUI", "Animation"]

/-- An actor's name can be told apart from the head of another phrase. -/
def IsActorName (s : String) : Prop := IsName s ∧ s ∉ Phrase.heads

/-- An emotion that is given is a name. -/
def Entrance.Valid (e : Entrance) : Prop := ∀ emotion, e.emotion = some emotion → IsName emotion

/-- A scale that is given is not negative, and a layer has to be a number of a script. -/
structure Showing.Valid (s : Showing) : Prop where
  scale_not_neg : ∀ x, s.scale = some x → ¬ x < 0
  layer_double : ∀ n, s.layer = some n → IsDouble n

/-- What the words of a phrase have to be for it to be written. Ids are arbitrary texts. -/
def Phrase.Valid : Phrase → Prop
  | sceneBegins _ | backgroundChanges _ | panelChanges _ _ _ => True
  | actorAppears name e | actorFadesIn name e => IsActorName name ∧ e.Valid
  | actorDisappears name | actorFadesOut name | actorMoves name _ | actorLooks name _ =>
    IsActorName name
  | animationAppears name s => IsName name ∧ s.Valid
  | animationFades name _ | animationMoves name _ _ | animationLooks name _ => IsName name

namespace Script

open Reading

/-- A word among tokens is a name. -/
def TokenValue.Named : TokenValue → Prop
  | .word w => IsName w
  | _ => True

variable {ts rest : List Token}

/-- The place that a reader finds is found before the tokens that it leaves. -/
theorem place_reads_named {p : Position} (h : (place ts).Reads p rest)
    (hts : ∀ t ∈ ts, t.value.Named) : ∀ t ∈ rest, t.value.Named := by
  simp only [place, andThen_reads, keyword_reads] at h
  obtain ⟨w, between, ⟨t, rfl, -, -⟩, hrest⟩ := h
  have hbetween : ∀ t ∈ between, t.value.Named := fun t ht => hts t (List.mem_cons_of_mem _ ht)
  split at hrest
  · simp only [mapValue_reads, keyword_reads] at hrest
    obtain ⟨w', ⟨t', rfl, -, -⟩, -⟩ := hrest
    exact fun t ht => hbetween t (List.mem_cons_of_mem _ ht)
  · split at hrest
    · simp only [mapValue_reads, keyword_reads] at hrest
      obtain ⟨w', ⟨t', rfl, -, -⟩, -⟩ := hrest
      exact fun t ht => hbetween t (List.mem_cons_of_mem _ ht)
    · obtain ⟨-, rfl⟩ := done_reads.1 hrest
      exact hbetween

@[simp] theorem coordinates_reads {p : Placement} :
    (coordinates ts).Reads p rest ↔ ∃ t t' x y, ts = t :: t' :: rest ∧ t.value = .number x ∧
      t'.value = .number y ∧ p = .coords [x, y] := by
  simp only [coordinates, andThen_reads, mapValue_reads, number_reads]
  constructor
  · rintro ⟨x, between, ⟨t, rfl, hx⟩, y, ⟨t', rfl, hy⟩, rfl⟩
    exact ⟨t, t', x, y, rfl, hx, hy, rfl⟩
  · rintro ⟨t, t', x, y, rfl, hx, hy, rfl⟩
    exact ⟨x, _, ⟨t, rfl, hx⟩, y, ⟨t', rfl, hy⟩, rfl⟩

/-- What every option of a table preserves, a list of options preserves. An option leaves only
    tokens that were there before. -/
theorem options_preserve {table : OptionTable} {I : Params → Prop}
    (hoption : ∀ w read ts set rest, table w = some read → Reads (read ts) set rest →
      (∀ t ∈ ts, t.value.Named) → (∀ t ∈ rest, t.value.Named) ∧ ∀ p, I p → I (set p))
    {used : List String} {params out : Params} (h : options table used params ts = .ok out)
    (hts : ∀ t ∈ ts, t.value.Named) (hparams : I params) : I out := by
  fun_induction options table used params ts with
  | case1 => cases h; exact hparams
  | case2 => cases h
  | case3 => cases h
  | case4 => cases h
  | case5 used params t rest w read hread hused set after hafter hset ih =>
    obtain ⟨w', -, hw'⟩ := Option.bind_eq_some_iff.1 hread
    obtain ⟨read', htable, heq⟩ := Option.map_eq_some_iff.1 hw'
    cases heq
    have hrest : ∀ t ∈ rest, t.value.Named := fun t ht => hts t (List.mem_cons_of_mem _ ht)
    obtain ⟨hnamed, hkeeps⟩ := hoption w read rest set after htable ⟨hafter, hset⟩ hrest
    exact ih h hnamed (hkeeps params hparams)

/-- The options of an actor that comes on stage describe its entrance. -/
theorem actorOptions_sound {direction : Option Fade} {out : Params}
    (h : options actorOptions [] (Entrance.params {} direction) ts = .ok out)
    (hts : ∀ t ∈ ts, t.value.Named) : ∃ e : Entrance, e.Valid ∧ e.params direction = out := by
  refine options_preserve (I := fun p => ∃ e : Entrance, e.Valid ∧ e.params direction = p)
    (fun w read ts set rest hread hset hts => ?_) h hts ⟨{}, by simp [Entrance.Valid], rfl⟩
  unfold actorOptions at hread
  split at hread
  · cases hread
    obtain ⟨place, hplace, rfl⟩ := mapValue_reads.1 hset
    refine ⟨place_reads_named hplace hts, ?_⟩
    rintro p ⟨e, he, rfl⟩
    exact ⟨{ e with place := some place }, he, rfl⟩
  · cases hread
    obtain ⟨facing, hfacing, rfl⟩ := mapValue_reads.1 hset
    obtain ⟨t, w, rfl, -, -⟩ := member_reads.1 hfacing
    refine ⟨fun t ht => hts t (List.mem_cons_of_mem _ ht), ?_⟩
    rintro p ⟨e, he, rfl⟩
    exact ⟨{ e with facing := some facing }, he, rfl⟩
  · cases hread
    obtain ⟨emotion, hemotion, rfl⟩ := mapValue_reads.1 hset
    obtain ⟨t, rfl, hword⟩ := identifier_reads.1 hemotion
    refine ⟨fun t ht => hts t (List.mem_cons_of_mem _ ht), ?_⟩
    rintro p ⟨e, he, rfl⟩
    have hname : IsName emotion := by
      have hnamed := hts t List.mem_cons_self
      rwa [hword] at hnamed
    refine ⟨{ e with emotion := some emotion }, fun emotion' heq => ?_, rfl⟩
    cases heq
    exact hname
  · cases hread

/-- The options of an animation that appears describe its showing. -/
theorem animationOptions_sound {out : Params} (h : options animationOptions [] {} ts = .ok out)
    (hts : ∀ t ∈ ts, t.value.Named) : ∃ s : Showing, s.Valid ∧ s.params = out := by
  refine options_preserve (I := fun p => ∃ s : Showing, s.Valid ∧ s.params = p)
    (fun w read ts set rest hread hset hts => ?_) h hts ⟨{}, ⟨by simp, by simp⟩, rfl⟩
  unfold animationOptions at hread
  split at hread
  · cases hread
    obtain ⟨position, hposition, rfl⟩ := mapValue_reads.1 hset
    obtain ⟨t, t', x, y, rfl, -, -, rfl⟩ := coordinates_reads.1 hposition
    refine ⟨fun t ht => hts t (List.mem_cons_of_mem _ (List.mem_cons_of_mem _ ht)), ?_⟩
    rintro p ⟨s, hs, rfl⟩
    exact ⟨{ s with position := some (x, y) }, ⟨hs.scale_not_neg, hs.layer_double⟩, rfl⟩
  · cases hread
    obtain ⟨x, hx, rfl⟩ := mapValue_reads.1 hset
    obtain ⟨t, rfl, -, hnot⟩ := scaleFactor_reads.1 hx
    refine ⟨fun t ht => hts t (List.mem_cons_of_mem _ ht), ?_⟩
    rintro p ⟨s, hs, rfl⟩
    refine ⟨{ s with scale := some x }, ⟨fun x' heq => ?_, hs.layer_double⟩, rfl⟩
    cases heq
    exact hnot
  · cases hread
    obtain ⟨n, hn, rfl⟩ := mapValue_reads.1 hset
    obtain ⟨t, rfl, x, -, hwhole, htruncate⟩ := layerIndex_reads.1 hn
    refine ⟨fun t ht => hts t (List.mem_cons_of_mem _ ht), ?_⟩
    rintro p ⟨s, hs, rfl⟩
    refine ⟨{ s with layer := some n }, ⟨hs.scale_not_neg, fun n' heq => ?_⟩, rfl⟩
    cases heq
    exact ⟨x, hwhole, htruncate⟩
  · cases hread

/-- A phrase about an actor. -/
theorem actorPhrase_sound {name : String} {d : StageDirection}
    (h : actorPhrase name ts = .ok d) (hname : IsActorName name)
    (hts : ∀ t ∈ ts, t.value.Named) : ∃ p : Phrase, p.Valid ∧ p.direction = d := by
  unfold actorPhrase at h
  simp only [finishWith_eq_ok, verb_reads] at h
  obtain ⟨w, rest, ⟨t, rfl, -, hw⟩, h⟩ := h
  have hrest : ∀ t ∈ rest, t.value.Named := fun t ht => hts t (List.mem_cons_of_mem _ ht)
  split at h
  · obtain ⟨out, hout, rfl⟩ := map_eq_ok.1 h
    obtain ⟨e, he, rfl⟩ := actorOptions_sound hout hrest
    exact ⟨.actorAppears name e, ⟨hname, he⟩, rfl⟩
  split at h
  · obtain ⟨rfl, -⟩ := done_reads.1 (atEnd_eq_ok.1 h)
    exact ⟨.actorDisappears name, hname, rfl⟩
  split at h
  · obtain ⟨fade, more, hfade, h⟩ := finishWith_eq_ok.1 h
    obtain ⟨t', w', rfl, -, -⟩ := member_reads.1 hfade
    cases fade with
    | fadeIn =>
      obtain ⟨out, hout, rfl⟩ := map_eq_ok.1 h
      have hout : options actorOptions [] (Entrance.params {} (some .fadeIn)) more = .ok out := hout
      obtain ⟨e, he, rfl⟩ := actorOptions_sound hout fun t ht =>
        hrest t (List.mem_cons_of_mem _ ht)
      exact ⟨.actorFadesIn name e, ⟨hname, he⟩, rfl⟩
    | fadeOut =>
      obtain ⟨rfl, -⟩ := done_reads.1 (atEnd_eq_ok.1 h)
      exact ⟨.actorFadesOut name, hname, rfl⟩
  split at h
  · simp only [atEnd_eq_ok, andThen_reads, mapValue_reads] at h
    obtain ⟨-, between, -, place, -, rfl⟩ := h
    exact ⟨.actorMoves name place, hname, rfl⟩
  · simp only [atEnd_eq_ok, mapValue_reads] at h
    obtain ⟨facing, -, rfl⟩ := h
    exact ⟨.actorLooks name facing, hname, rfl⟩

/-- A phrase about an animation. -/
theorem animationPhrase_sound {d : StageDirection} (h : animationPhrase ts = .ok d)
    (hts : ∀ t ∈ ts, t.value.Named) : ∃ p : Phrase, p.Valid ∧ p.direction = d := by
  unfold animationPhrase at h
  simp only [finishWith_eq_ok, verb_reads, identifier_reads] at h
  obtain ⟨name, -, ⟨t, rfl, hword⟩, w, rest, ⟨t', rfl, -, hw⟩, h⟩ := h
  have hname : IsName name := by
    have hnamed := hts t List.mem_cons_self
    rwa [hword] at hnamed
  have hrest : ∀ t ∈ rest, t.value.Named := fun t ht =>
    hts t (List.mem_cons_of_mem _ (List.mem_cons_of_mem _ ht))
  split at h
  · obtain ⟨out, hout, rfl⟩ := map_eq_ok.1 h
    obtain ⟨s, hs, rfl⟩ := animationOptions_sound hout hrest
    exact ⟨.animationAppears name s, ⟨hname, hs⟩, rfl⟩
  split at h
  · simp only [atEnd_eq_ok, mapValue_reads] at h
    obtain ⟨fade, -, rfl⟩ := h
    exact ⟨.animationFades name fade, hname, rfl⟩
  split at h
  · simp only [atEnd_eq_ok, andThen_reads, mapValue_reads, coordinates_reads] at h
    obtain ⟨-, between, -, -, ⟨-, -, x, y, -, -, -, rfl⟩, rfl⟩ := h
    exact ⟨.animationMoves name x y, hname, rfl⟩
  · simp only [atEnd_eq_ok, mapValue_reads] at h
    obtain ⟨facing, -, rfl⟩ := h
    exact ⟨.animationLooks name facing, hname, rfl⟩

/-- Every direction that is read off tokens is that of a phrase. -/
theorem phrase_sound {d : StageDirection} (h : phrase ts = .ok d)
    (hts : ∀ t ∈ ts, t.value.Named) : ∃ p : Phrase, p.Valid ∧ p.direction = d := by
  unfold phrase at h
  split at h
  · cases h
  · next head rest =>
    have hrest : ∀ t ∈ rest, t.value.Named := fun t ht => hts t (List.mem_cons_of_mem _ ht)
    split at h
    · cases h
    · simp only [scenePhrase, atEnd_eq_ok, andThen_reads, mapValue_reads] at h
      obtain ⟨name, -, -, -, -, rfl⟩ := h
      exact ⟨.sceneBegins name, trivial, rfl⟩
    · simp only [backgroundPhrase, atEnd_eq_ok, andThen_reads, mapValue_reads] at h
      obtain ⟨-, -, -, -, -, -, id, -, rfl⟩ := h
      exact ⟨.backgroundChanges id, trivial, rfl⟩
    · simp only [panelPhrase, atEnd_eq_ok, andThen_reads, mapValue_reads] at h
      obtain ⟨panel, -, -, -, -, -, -, -, -, id, -, -, scaling, -, rfl⟩ := h
      exact ⟨.panelChanges panel id scaling, trivial, rfl⟩
    · exact animationPhrase_sound h hrest
    · next name hscene hbackground hgui hanimation hword =>
      have hname : IsName name := by
        have hnamed := hts head List.mem_cons_self
        rwa [TokenValue.word?_eq_some.1 hword] at hnamed
      refine actorPhrase_sound h ⟨hname, ?_⟩ hrest
      simp only [Phrase.heads, List.mem_cons, List.not_mem_nil, or_false, not_or]
      exact ⟨hscene, hbackground, hgui, hanimation⟩

end Script

end VisualNovel

import VisualNovel.Proofs.Script.Tokenizing

/-!
The tokens of a written phrase say that phrase again, with every number as it is read back.
-/

namespace VisualNovel

/-- A showing with its numbers as they are read back. -/
def Showing.reread (s : Showing) : Showing :=
  { s with
    position := s.position.map fun (x, y) => (Number.reread x, Number.reread y)
    scale := s.scale.map Number.reread }

/-- A phrase with its numbers as they are read back. -/
def Phrase.reread : Phrase → Phrase
  | animationAppears name s => animationAppears name s.reread
  | animationMoves name x y => animationMoves name (Number.reread x) (Number.reread y)
  | p => p

namespace Script

open Reading

variable {ts rest : List Token} {chunks : List Chunk}

@[simp] theorem says_nil : Says [] rest ts ↔ ts = rest := Iff.rfl

@[simp] theorem says_word {w : String} : Says (.word w :: chunks) rest ts ↔
    ∃ t more, ts = t :: more ∧ t.value = .word w ∧ Says chunks rest more := Iff.rfl

@[simp] theorem says_text {s : String} : Says (.text s :: chunks) rest ts ↔
    ∃ t more, ts = t :: more ∧
      (∃ e, t.value = .text e ∧ e.variableNames = [] ∧ e.literalText = s) ∧
      Says chunks rest more := Iff.rfl

@[simp] theorem says_number {x : Float} : Says (.number x :: chunks) rest ts ↔
    ∃ t more, ts = t :: more ∧ t.value = .number (Number.reread x) ∧ Says chunks rest more :=
  Iff.rfl

@[simp] theorem says_layer {n : Int} : Says (.layer n :: chunks) rest ts ↔
    ∃ t more, ts = t :: more ∧
      (∃ x, t.value = .number x ∧ Number.isWhole x ∧ Number.truncate x = .ok n) ∧
      Says chunks rest more := Iff.rfl

theorem says_append {cs ds : List Chunk} :
    Says (cs ++ ds) rest ts ↔ ∃ between, Says cs between ts ∧ Says ds rest between := by
  induction cs generalizing ts with
  | nil => simp [Says]
  | cons c cs ih =>
    simp only [List.cons_append, Says, ih]
    constructor
    · rintro ⟨t, more, rfl, hc, between, hcs, hds⟩
      exact ⟨between, ⟨t, more, rfl, hc, hcs⟩, hds⟩
    · rintro ⟨between, ⟨t, more, rfl, hc, hcs⟩, hds⟩
      exact ⟨t, more, rfl, hc, between, hcs, hds⟩

/-- The words of a place are read as that place. -/
theorem place_reads_chunks {p : Position} (h : Says p.chunks rest ts) : (place ts).Reads p rest := by
  cases p <;> simp only [Position.chunks, says_word, says_nil] at h
  case center | left | right =>
    obtain ⟨t, more, rfl, ht, rfl⟩ := h
    simp [place, ht]
  case farLeft | farRight | invisibleLeft | invisibleRight =>
    obtain ⟨t, more, rfl, ht, t', more', rfl, ht', rfl⟩ := h
    simp [place, ht, ht']

/-! ### Options -/

/-- An option that is read sets its parameter, and the options behind it go on. -/
theorem options_cons {table : OptionTable} {used : List String} {params : Params} {t : Token}
    {w : String} {read : (ts : List Token) → Reading Setter ts} {set : Setter}
    (ht : t.value = .word w) (htable : table w = some read) (hused : w ∉ used)
    (hread : (read ts).Reads set rest) :
    options table used params (t :: ts) = options table (w :: used) (set params) rest := by
  obtain ⟨hlen, hread⟩ := hread
  have hoption : (t.value.word?.bind fun w => (table w).map (w, ·)) = some (w, read) := by
    simp [ht, TokenValue.word?, htable]
  rw [options.eq_def]
  dsimp only
  split
  · next hnone => simp [hoption] at hnone
  · next w' read' hsome =>
    rw [hoption, Option.some.injEq, Prod.mk.injEq] at hsome
    obtain ⟨rfl, rfl⟩ := hsome
    rw [if_neg (by simpa using hused)]
    split
    · next flaw herror => simp [hread] at herror
    · next set' after hafter hok =>
      rw [hread, Except.ok.injEq, Prod.mk.injEq, Subtype.mk.injEq] at hok
      obtain ⟨rfl, rfl⟩ := hok
      rfl

/-- An option that may be given sets its parameter if it is. -/
theorem options_given {α : Type} {given : Option α} {table : OptionTable} {used : List String}
    {w : String} {read : (ts : List Token) → Reading Setter ts} {chunks : α → List Chunk}
    (h : Says ((given.map fun a => .word w :: chunks a).getD []) rest ts)
    (htable : table w = some read) (hused : w ∉ used) (set : α → Setter)
    (hread : ∀ a ∈ given, ∀ more, Says (chunks a) rest more → (read more).Reads (set a) rest) :
    ∃ used', used' ⊆ w :: used ∧ ∀ params,
      options table used params ts = options table used' (given.elim params (set · params)) rest := by
  cases given with
  | none =>
    obtain rfl : ts = rest := h
    exact ⟨used, List.subset_cons_self w used, fun _ => rfl⟩
  | some a =>
    obtain ⟨t, more, rfl, ht, hmore⟩ := h
    refine ⟨w :: used, List.Subset.refl _, fun _ => ?_⟩
    exact options_cons ht htable hused (hread a rfl more hmore)

theorem member_reads_chunks {α : Type} [Vocabulary α] {a : α}
    (ha : Vocabulary.ofWord? (Vocabulary.word a) = some a)
    (h : Says [.word (Vocabulary.word a)] rest ts) : (member α ts).Reads a rest := by
  obtain ⟨t, more, rfl, ht, rfl⟩ := h
  exact member_reads.2 ⟨t, _, rfl, ht, ha⟩

/-- The options of an actor are read as they were written. -/
theorem actorOptions_chunks {e : Entrance} (h : Says e.chunks [] ts) (direction : Option Fade) :
    options actorOptions [] { direction } ts = .ok (e.params direction) := by
  simp only [Entrance.chunks, says_append] at h
  obtain ⟨fromEmotion, ⟨fromFacing, hplace, hfacing⟩, hemotion⟩ := h
  obtain ⟨first, hfirst, hplace⟩ := options_given hplace (rfl : actorOptions "at" = some _)
    List.not_mem_nil (fun p params => { params with position := some (.place p) })
    fun p _ more hp => mapValue_reads.2 ⟨p, place_reads_chunks hp, rfl⟩
  obtain ⟨second, hsecond, hfacing⟩ := options_given hfacing
    (rfl : actorOptions "looking" = some _) (fun hmem => by simpa using hfirst hmem)
    (fun f params => { params with facing := some f })
    fun f _ more hf => mapValue_reads.2 ⟨f, member_reads_chunks (by cases f <;> rfl) hf, rfl⟩
  have hboth : second ⊆ ["looking", "at"] := 
    List.Subset.trans hsecond (List.cons_subset_cons _ hfirst)
  obtain ⟨third, -, hemotion⟩ := options_given hemotion (rfl : actorOptions "as" = some _)
    (fun hmem => by simpa using hboth hmem)
    (fun emotion params => { params with emotion := some (some emotion) })
    fun emotion _ more he => mapValue_reads.2 ⟨emotion, by simpa using he, rfl⟩
  rw [hplace, hfacing, hemotion, options]
  obtain ⟨place, facing, emotion⟩ := e
  cases place <;> cases facing <;> cases emotion <;> rfl

/-- The options of an animation are read as they were written, but for the sign of a zero. -/
theorem animationOptions_chunks {s : Showing} (hs : s.Valid) (h : Says s.chunks [] ts) :
    options animationOptions [] {} ts = .ok s.reread.params := by
  simp only [Showing.chunks, says_append] at h
  obtain ⟨fromLayer, ⟨fromScale, hposition, hscale⟩, hlayer⟩ := h
  obtain ⟨first, hfirst, hposition⟩ := options_given hposition
    (rfl : animationOptions "at" = some _) List.not_mem_nil
    (fun p params =>
      { params with position := some (.coords [Number.reread p.1, Number.reread p.2]) })
    fun p _ more hp => by
      simp only [says_number, says_nil] at hp
      obtain ⟨t, after, rfl, hx, t', after', rfl, hy, rfl⟩ := hp
      exact mapValue_reads.2 ⟨_, coordinates_reads.2 ⟨t, t', _, _, rfl, hx, hy, rfl⟩, rfl⟩
  obtain ⟨second, hsecond, hscale⟩ := options_given hscale
    (rfl : animationOptions "scale" = some _) (fun hmem => by simpa using hfirst hmem)
    (fun x params => { params with scale := some (Number.reread x) })
    fun x hgiven more hx => by
      simp only [says_number, says_nil] at hx
      obtain ⟨t, after, rfl, ht, rfl⟩ := hx
      have hnot := Number.not_reread_lt_zero (hs.scale_not_neg x hgiven)
      exact mapValue_reads.2 ⟨_, scaleFactor_reads.2 ⟨t, rfl, ht, hnot⟩, rfl⟩
  have hboth : second ⊆ ["scale", "at"] :=
    List.Subset.trans hsecond (List.cons_subset_cons _ hfirst)
  obtain ⟨third, -, hlayer⟩ := options_given hlayer (rfl : animationOptions "layer" = some _)
    (fun hmem => by simpa using hboth hmem) (fun n params => { params with layer := some n })
    fun n _ more hn => by
      simp only [says_layer, says_nil] at hn
      obtain ⟨t, after, rfl, ht, rfl⟩ := hn
      exact mapValue_reads.2 ⟨n, layerIndex_reads.2 ⟨t, rfl, ht⟩, rfl⟩
  rw [hposition, hscale, hlayer, options]
  obtain ⟨position, scale, layer⟩ := s
  cases position <;> cases scale <;> cases layer <;> rfl

/-! ### Phrases -/

theorem scenePhrase_chunks {name : String} (h : Says [.text name, .word "begins"] [] ts) :
    scenePhrase ts = .ok (Phrase.sceneBegins name).direction := by
  simp only [says_word, says_text, says_nil] at h
  obtain ⟨t, _, rfl, hname, t', _, rfl, ht', rfl⟩ := h
  simp [scenePhrase, hname, ht', Phrase.direction]

theorem backgroundPhrase_chunks {id : String}
    (h : Says [.word "changes", .word "to", .text id] [] ts) :
    backgroundPhrase ts = .ok (Phrase.backgroundChanges id).direction := by
  simp only [says_word, says_text, says_nil] at h
  obtain ⟨t, _, rfl, ht, t', _, rfl, ht', t'', _, rfl, hid, rfl⟩ := h
  simp [backgroundPhrase, ht, ht', hid, Phrase.direction]

theorem panelPhrase_chunks {panel : Panel} {id : String} {scaling : Option Scaling}
    (h : Says ([.word (Vocabulary.word panel), .word "changes", .word "to", .text id] ++
      (scaling.map fun s => [.word (Vocabulary.word s)]).getD []) [] ts) :
    panelPhrase ts = .ok (Phrase.panelChanges panel id scaling).direction := by
  have hpanel : Vocabulary.ofWord? (Vocabulary.word panel) = some panel := by cases panel <;> rfl
  rw [says_append] at h
  obtain ⟨last, h, hscaling⟩ := h
  simp only [says_word, says_text, says_nil] at h
  obtain ⟨t, _, rfl, ht, t', _, rfl, ht', t'', _, rfl, ht'', t₃, _, rfl, hid, rfl⟩ := h
  cases scaling with
  | none =>
    obtain rfl := hscaling
    simp [panelPhrase, ht, ht', ht'', hid, hpanel, Phrase.direction]
  | some s =>
    have hs : Vocabulary.ofWord? (Vocabulary.word s) = some s := by cases s <;> rfl
    simp only [Option.map_some, Option.getD_some, says_word, says_nil] at hscaling
    obtain ⟨t₄, _, rfl, ht₄, rfl⟩ := hscaling
    have hmember : t₄.value.member? Scaling = some s := by rw [ht₄]; exact hs
    simp [panelPhrase, ht, ht', ht'', hid, hpanel, hmember, Phrase.direction]

section Actor

variable {name : String}

theorem actorAppears_chunks {e : Entrance} (h : Says (.word "appears" :: e.chunks) [] ts) :
    actorPhrase name ts = .ok (Phrase.actorAppears name e).direction := by
  obtain ⟨t, more, rfl, ht, h⟩ := says_word.1 h
  rw [actorPhrase, finishWith_eq_ok]
  refine ⟨"appears", more, by simp [ht], ?_⟩
  simp only [beq_self_eq_true, if_true, actorOptions_chunks h]
  rfl

theorem actorDisappears_chunks (h : Says [.word "disappears"] [] ts) :
    actorPhrase name ts = .ok (Phrase.actorDisappears name).direction := by
  obtain ⟨t, more, rfl, ht, rfl⟩ := says_word.1 h
  rw [actorPhrase, finishWith_eq_ok]
  exact ⟨"disappears", [], by simp [ht], rfl⟩

theorem actorFadesIn_chunks {e : Entrance}
    (h : Says (.word "fades" :: .word "in" :: e.chunks) [] ts) :
    actorPhrase name ts = .ok (Phrase.actorFadesIn name e).direction := by
  obtain ⟨t, _, rfl, ht, h⟩ := says_word.1 h
  obtain ⟨t', more, rfl, ht', h⟩ := says_word.1 h
  rw [actorPhrase, finishWith_eq_ok]
  refine ⟨"fades", t' :: more, by simp [ht], finishWith_eq_ok.2 ⟨.fadeIn, more, ?_, ?_⟩⟩
  · exact member_reads.2 ⟨t', "in", rfl, ht', rfl⟩
  · simp only [actorOptions_chunks h]
    rfl

theorem actorFadesOut_chunks (h : Says [.word "fades", .word "out"] [] ts) :
    actorPhrase name ts = .ok (Phrase.actorFadesOut name).direction := by
  obtain ⟨t, _, rfl, ht, h⟩ := says_word.1 h
  obtain ⟨t', more, rfl, ht', rfl⟩ := says_word.1 h
  rw [actorPhrase, finishWith_eq_ok]
  refine ⟨"fades", [t'], by simp [ht], finishWith_eq_ok.2 ⟨.fadeOut, [], ?_, rfl⟩⟩
  exact member_reads.2 ⟨t', "out", rfl, ht', rfl⟩

theorem actorMoves_chunks {p : Position}
    (h : Says (.word "moves" :: .word "to" :: p.chunks) [] ts) :
    actorPhrase name ts = .ok (Phrase.actorMoves name p).direction := by
  obtain ⟨t, _, rfl, ht, h⟩ := says_word.1 h
  obtain ⟨t', more, rfl, ht', h⟩ := says_word.1 h
  rw [actorPhrase, finishWith_eq_ok]
  refine ⟨"moves", t' :: more, by simp [ht], atEnd_eq_ok.2 (andThen_reads.2 ?_)⟩
  exact ⟨"to", more, by simp [ht'], mapValue_reads.2 ⟨p, place_reads_chunks h, rfl⟩⟩

theorem actorLooks_chunks {f : Facing}
    (h : Says [.word "looks", .word (Vocabulary.word f)] [] ts) :
    actorPhrase name ts = .ok (Phrase.actorLooks name f).direction := by
  obtain ⟨t, more, rfl, ht, h⟩ := says_word.1 h
  rw [actorPhrase, finishWith_eq_ok]
  refine ⟨"looks", more, by simp [ht], atEnd_eq_ok.2 (mapValue_reads.2 ⟨f, ?_, rfl⟩)⟩
  exact member_reads_chunks (by cases f <;> rfl) h

end Actor

section Animation

variable {name : String}

theorem animationAppears_chunks {s : Showing} (hs : s.Valid)
    (h : Says (.word name :: .word "appears" :: s.chunks) [] ts) :
    animationPhrase ts = .ok (Phrase.animationAppears name s.reread).direction := by
  obtain ⟨t, _, rfl, ht, h⟩ := says_word.1 h
  obtain ⟨t', more, rfl, ht', h⟩ := says_word.1 h
  rw [animationPhrase, finishWith_eq_ok]
  refine ⟨name, t' :: more, by simp [ht], finishWith_eq_ok.2 ⟨"appears", more, by simp [ht'], ?_⟩⟩
  simp only [beq_self_eq_true, if_true, animationOptions_chunks hs h]
  rfl

theorem animationFades_chunks {fade : Fade}
    (h : Says [.word name, .word "fades", .word (Vocabulary.word fade)] [] ts) :
    animationPhrase ts = .ok (Phrase.animationFades name fade).direction := by
  obtain ⟨t, _, rfl, ht, h⟩ := says_word.1 h
  obtain ⟨t', more, rfl, ht', h⟩ := says_word.1 h
  rw [animationPhrase, finishWith_eq_ok]
  refine ⟨name, t' :: more, by simp [ht], finishWith_eq_ok.2 ⟨"fades", more, by simp [ht'], ?_⟩⟩
  refine atEnd_eq_ok.2 (mapValue_reads.2 ⟨fade, ?_, rfl⟩)
  exact member_reads_chunks (by cases fade <;> rfl) h

theorem animationMoves_chunks {x y : Float}
    (h : Says [.word name, .word "moves", .word "to", .number x, .number y] [] ts) :
    animationPhrase ts =
      .ok (Phrase.animationMoves name (Number.reread x) (Number.reread y)).direction := by
  obtain ⟨t, _, rfl, ht, h⟩ := says_word.1 h
  obtain ⟨t', _, rfl, ht', h⟩ := says_word.1 h
  obtain ⟨t'', _, rfl, ht'', h⟩ := says_word.1 h
  obtain ⟨u, _, rfl, hu, h⟩ := says_number.1 h
  obtain ⟨v, _, rfl, hv, rfl⟩ := says_number.1 h
  rw [animationPhrase, finishWith_eq_ok]
  refine ⟨name, [t', t'', u, v], by simp [ht], finishWith_eq_ok.2 ⟨"moves", [t'', u, v],
    by simp [ht'], atEnd_eq_ok.2 (andThen_reads.2 ⟨"to", [u, v], by simp [ht''], ?_⟩)⟩⟩
  exact mapValue_reads.2 ⟨_, coordinates_reads.2 ⟨u, v, _, _, rfl, hu, hv, rfl⟩, rfl⟩

theorem animationLooks_chunks {f : Facing}
    (h : Says [.word name, .word "looks", .word (Vocabulary.word f)] [] ts) :
    animationPhrase ts = .ok (Phrase.animationLooks name f).direction := by
  obtain ⟨t, _, rfl, ht, h⟩ := says_word.1 h
  obtain ⟨t', more, rfl, ht', h⟩ := says_word.1 h
  rw [animationPhrase, finishWith_eq_ok]
  refine ⟨name, t' :: more, by simp [ht], finishWith_eq_ok.2 ⟨"looks", more, by simp [ht'], ?_⟩⟩
  refine atEnd_eq_ok.2 (mapValue_reads.2 ⟨f, ?_, rfl⟩)
  exact member_reads_chunks (by cases f <;> rfl) h

end Animation

/-! The first token of a phrase tells what the phrase is about. -/

section Head

variable {t : Token}

theorem phrase_scene (ht : t.value = .word "Scene") : phrase (t :: ts) = scenePhrase ts := by
  simp only [phrase, ht, TokenValue.word?]

theorem phrase_background (ht : t.value = .word "Background") :
    phrase (t :: ts) = backgroundPhrase ts := by
  simp only [phrase, ht, TokenValue.word?]

theorem phrase_panel (ht : t.value = .word "GUI") : phrase (t :: ts) = panelPhrase ts := by
  simp only [phrase, ht, TokenValue.word?]

theorem phrase_animation (ht : t.value = .word "Animation") :
    phrase (t :: ts) = animationPhrase ts := by
  simp only [phrase, ht, TokenValue.word?]

theorem phrase_actor {name : String} (ht : t.value = .word name) (hname : name ∉ Phrase.heads) :
    phrase (t :: ts) = actorPhrase name ts := by
  simp only [Phrase.heads, List.mem_cons, List.not_mem_nil, or_false, not_or] at hname
  unfold phrase
  dsimp only
  rw [ht]
  dsimp only [TokenValue.word?]
  split <;> simp_all

end Head

/-- The tokens of a written phrase say it again, but for the sign of a zero. -/
theorem phrase_chunks {p : Phrase} (hp : p.Valid) (h : Says p.chunks [] ts) :
    phrase ts = .ok p.reread.direction := by
  cases p <;> obtain ⟨head, more, rfl, hhead, h⟩ := says_word.1 h
  case sceneBegins name => exact (phrase_scene hhead).trans (scenePhrase_chunks h)
  case backgroundChanges id => exact (phrase_background hhead).trans (backgroundPhrase_chunks h)
  case panelChanges => exact (phrase_panel hhead).trans (panelPhrase_chunks h)
  case actorAppears => exact (phrase_actor hhead hp.1.2).trans (actorAppears_chunks h)
  case actorDisappears => exact (phrase_actor hhead hp.2).trans (actorDisappears_chunks h)
  case actorFadesIn => exact (phrase_actor hhead hp.1.2).trans (actorFadesIn_chunks h)
  case actorFadesOut => exact (phrase_actor hhead hp.2).trans (actorFadesOut_chunks h)
  case actorMoves => exact (phrase_actor hhead hp.2).trans (actorMoves_chunks h)
  case actorLooks => exact (phrase_actor hhead hp.2).trans (actorLooks_chunks h)
  case animationAppears => exact (phrase_animation hhead).trans (animationAppears_chunks hp.2 h)
  case animationFades => exact (phrase_animation hhead).trans (animationFades_chunks h)
  case animationMoves => exact (phrase_animation hhead).trans (animationMoves_chunks h)
  case animationLooks => exact (phrase_animation hhead).trans (animationLooks_chunks h)

end Script

end VisualNovel

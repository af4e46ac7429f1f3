import VisualNovel.Proofs.Number.Written
import VisualNovel.Proofs.Script.Exponents
import VisualNovel.Proofs.Script.Grammar
import Mathlib.Data.List.Perm.Basic
import Mathlib.Data.List.Nodup

/-!
The reader of stage directions accepts exactly the phrases of the grammar. Each reader takes the
tokens that the grammar spells, no more and no others.
-/

namespace VisualNovel.Script

open Reading PhraseOption

/-- A number among tokens is one that some text begins with. -/
def TokenValue.Parsed : TokenValue → Prop
  | .number x => ∃ text after, numberAt? text = some (x, after)
  | _ => True

theorem isNumber_of_numberAt? {text after : List Char} {x : Float}
    (h : numberAt? text = some (x, after)) : Number.IsNumber x := by
  simp only [numberAt?] at h
  split at h
  · cases h
  · cases h
    exact Number.isNumber_ofDecimal _ _ _

/-- The tokens begin with these values, and the others are left. -/
def Begins (vs : List TokenValue) (ts rest : List Token) : Prop :=
  ∃ front, ts = front ++ rest ∧ front.map (·.value) = vs

variable {ts rest : List Token} {vs ws : List TokenValue}

@[simp] theorem begins_nil : Begins [] ts rest ↔ ts = rest := by
  simp [Begins]

@[simp] theorem begins_cons {v : TokenValue} :
    Begins (v :: vs) ts rest ↔ ∃ t more, ts = t :: more ∧ t.value = v ∧ Begins vs more rest := by
  constructor
  · rintro ⟨front, rfl, hfront⟩
    obtain ⟨t, more, rfl, ht, hmore⟩ := List.map_eq_cons_iff.1 hfront
    exact ⟨t, more ++ rest, rfl, ht, more, rfl, hmore⟩
  · rintro ⟨t, -, rfl, ht, front, rfl, hfront⟩
    exact ⟨t :: front, rfl, by rw [List.map_cons, ht, hfront]⟩

theorem Begins.map_value (h : Begins vs ts rest) :
    ts.map (·.value) = vs ++ rest.map (·.value) := by
  obtain ⟨front, rfl, rfl⟩ := h
  exact List.map_append

/-- Tokens with these values first begin with them. -/
theorem exists_begins (h : ts.map (·.value) = vs ++ ws) :
    ∃ rest, Begins vs ts rest ∧ rest.map (·.value) = ws := by
  obtain ⟨front, rest, rfl, hfront, hrest⟩ := List.map_eq_append_iff.1 h
  exact ⟨rest, ⟨front, rfl, hfront⟩, hrest⟩

/-- To the last token. -/
theorem begins_nil_right : Begins vs ts [] ↔ ts.map (·.value) = vs := by
  simp [Begins]

theorem Begins.suffix (h : Begins vs ts rest) : rest <:+ ts := by
  obtain ⟨front, rfl, -⟩ := h
  exact List.suffix_append front rest

/-! ### Readers -/

theorem Vocabulary.word_of_ofWord? {α : Type} [Vocabulary α] {w : String} {a : α}
    (h : Vocabulary.ofWord? w = some a) : Vocabulary.word a = w := by
  simpa using List.find?_some h

/-- A place is read off its words. -/
theorem place_reads {p : Position} : (place ts).Reads p rest ↔ Begins p.spelling ts rest := by
  constructor
  · intro h
    simp only [place, andThen_reads, keyword_reads, List.mem_cons, List.not_mem_nil, or_false] at h
    obtain ⟨w, between, ⟨t, rfl, ht, rfl | rfl | rfl | rfl | rfl⟩, h⟩ := h
    case inl | inr.inl | inr.inr.inl =>
      simp at h
      obtain ⟨rfl, rfl⟩ := h
      simp [Position.spelling, ht]
    case inr.inr.inr.inl | inr.inr.inr.inr =>
      simp at h
      obtain ⟨w', ⟨t', rfl, ht', rfl | rfl⟩, rfl⟩ := h
      · simp [Position.spelling, ht, ht']
      · simp [Position.spelling, ht, ht']
  · intro h
    cases p <;> simp only [Position.spelling, begins_cons, begins_nil] at h
    case center | left | right =>
      obtain ⟨t, more, rfl, ht, rfl⟩ := h
      simp [place, ht]
    case farLeft | farRight | invisibleLeft | invisibleRight =>
      obtain ⟨t, more, rfl, ht, t', more', rfl, ht', rfl⟩ := h
      simp [place, ht, ht']

/-- A reader of options reads the tokens of one option, from its first word on. -/
structure OptionTable.Reads (table : OptionTable) (α : Type) [PhraseOption α] : Prop where
  /-- What is read is an option of this kind. -/
  sound : ∀ {t : Token} {w : String} {read : (ts : List Token) → Reading Setter ts} {set : Setter}
    {ts rest : List Token}, (∀ t ∈ ts, t.value.Parsed) → t.value = .word w →
    table w = some read → (read ts).Reads set rest →
    ∃ (o : α) (piece : List TokenValue), PhraseOption.Spelled o piece ∧
      lead o = w ∧ PhraseOption.set o = set ∧ Begins piece (t :: ts) rest
  /-- Each option of this kind is read. -/
  complete : ∀ {o : α} {piece : List TokenValue} {ts rest : List Token},
    (∀ t ∈ ts, t.value.Parsed) → PhraseOption.Spelled o piece → Begins piece ts rest →
    ∃ t more read, ts = t :: more ∧ t.value = .word (lead o) ∧
      table (lead o) = some read ∧ (read more).Reads (PhraseOption.set o) rest

/-- The options up to the last token are options of the grammar, no two with one first word. -/
theorem options_eq_ok_iff {α : Type} [PhraseOption α] {table : OptionTable}
    (htable : table.Reads α) {used : List String} {params out : Params}
    (hts : ∀ t ∈ ts, t.value.Parsed) :
    options table used params ts = .ok out ↔ ∃ (os : List α) (pieces : List (List TokenValue)),
      List.Forall₂ PhraseOption.Spelled os pieces ∧ ts.map (·.value) = pieces.flatten ∧
      (os.map lead).Nodup ∧ (∀ o ∈ os, lead o ∉ used) ∧
      setAll os params = out := by
  constructor
  · intro h
    fun_induction options table used params ts with
    | case1 =>
      cases h
      exact ⟨[], [], .nil, rfl, List.nodup_nil, by simp, rfl⟩
    | case2 => cases h
    | case3 => cases h
    | case4 => cases h
    | case5 used params t rest w read hoption hused set after hafter hset ih =>
      obtain ⟨w', hw', htake⟩ := Option.bind_eq_some_iff.1 hoption
      obtain ⟨read', hread, heq⟩ := Option.map_eq_some_iff.1 htake
      cases heq
      obtain ⟨o, piece, ho, rfl, rfl, hpiece⟩ := htable.sound
        (fun t ht => hts t (List.mem_cons_of_mem _ ht)) (TokenValue.word?_eq_some.1 hw') hread
        ⟨hafter, hset⟩
      obtain ⟨os, pieces, hos, hvalues, hnodup, hnot, rfl⟩ :=
        ih (fun t ht => hts t (hpiece.suffix.subset ht)) h
      refine ⟨o :: os, piece :: pieces, .cons ho hos, ?_, ?_, ?_, rfl⟩
      · rw [hpiece.map_value, hvalues, List.flatten_cons]
      · refine List.nodup_cons.2 ⟨fun hmem => ?_, hnodup⟩
        obtain ⟨o', ho', heq⟩ := List.mem_map.1 hmem
        exact hnot o' ho' (heq ▸ List.mem_cons_self)
      · exact List.forall_mem_cons.2 ⟨by simpa using hused, fun o' ho' hmem =>
          hnot o' ho' (List.mem_cons_of_mem _ hmem)⟩
  · rintro ⟨os, pieces, hspelled, hvalues, hnodup, hused, rfl⟩
    induction hspelled generalizing ts used params with
    | nil =>
      obtain rfl := List.map_eq_nil_iff.1 hvalues
      rw [options]
      rfl
    | @cons o piece os pieces ho hos ih =>
      obtain ⟨rest, hpiece, hrest⟩ := exists_begins hvalues
      obtain ⟨t, more, read, rfl, ht, hread, hset⟩ := htable.complete hts ho hpiece
      obtain ⟨hnew, hnodup⟩ := List.nodup_cons.1 hnodup
      obtain ⟨hnot, hused⟩ := List.forall_mem_cons.1 hused
      rw [options_cons ht hread hnot hset]
      refine ih (fun t ht => hts t (hpiece.suffix.subset ht)) hrest hnodup fun o' ho' hmem => ?_
      rcases List.mem_cons.1 hmem with heq | hmem
      · exact hnew (List.mem_map.2 ⟨o', ho', heq⟩)
      · exact hused o' ho' hmem

/-- The options of an actor that comes on stage. -/
theorem actorOptions_reads : actorOptions.Reads EntranceOption where
  sound {t w read set ts rest} hts ht hread hset := by
    unfold actorOptions at hread
    split at hread
    · cases hread
      obtain ⟨place, hplace, rfl⟩ := mapValue_reads.1 hset
      exact ⟨.stands place, _, .stands place, rfl, rfl,
        begins_cons.2 ⟨t, ts, rfl, ht, place_reads.1 hplace⟩⟩
    · cases hread
      obtain ⟨facing, hfacing, rfl⟩ := mapValue_reads.1 hset
      obtain ⟨t', w, rfl, ht', hw⟩ := member_reads.1 hfacing
      obtain rfl := Vocabulary.word_of_ofWord? hw
      exact ⟨.faces facing, _, .faces facing, rfl, rfl, by simp [ht, ht']⟩
    · cases hread
      obtain ⟨emotion, hemotion, rfl⟩ := mapValue_reads.1 hset
      obtain ⟨t', rfl, ht'⟩ := identifier_reads.1 hemotion
      exact ⟨.feels emotion, _, .feels emotion, rfl, rfl, by simp [ht, ht']⟩
    · cases hread
  complete {o piece ts rest} hts ho hpiece := by
    cases ho with
    | stands place =>
      obtain ⟨t, more, rfl, ht, hmore⟩ := begins_cons.1 hpiece
      exact ⟨t, more, _, rfl, ht, rfl, mapValue_reads.2 ⟨place, place_reads.2 hmore, rfl⟩⟩
    | faces facing =>
      simp only [begins_cons, begins_nil] at hpiece
      obtain ⟨t, more, rfl, ht, t', more', rfl, ht', rfl⟩ := hpiece
      refine ⟨t, _, _, rfl, ht, rfl, mapValue_reads.2 ⟨facing, member_reads.2 ?_, rfl⟩⟩
      exact ⟨t', _, rfl, ht', by cases facing <;> rfl⟩
    | feels emotion =>
      simp only [begins_cons, begins_nil] at hpiece
      obtain ⟨t, more, rfl, ht, t', more', rfl, ht', rfl⟩ := hpiece
      refine ⟨t, _, _, rfl, ht, rfl, mapValue_reads.2 ⟨emotion, identifier_reads.2 ?_, rfl⟩⟩
      exact ⟨t', rfl, ht'⟩

/-- The options of an animation that appears. -/
theorem animationOptions_reads : animationOptions.Reads ShowingOption where
  sound {t w read set ts rest} hts ht hread hset := by
    unfold animationOptions at hread
    split at hread
    · cases hread
      obtain ⟨position, hposition, rfl⟩ := mapValue_reads.1 hset
      obtain ⟨t', t'', x, y, rfl, hx, hy, rfl⟩ := coordinates_reads.1 hposition
      exact ⟨.lies x y, _, .lies x y, rfl, rfl, by simp [ht, hx, hy]⟩
    · cases hread
      obtain ⟨x, hx, rfl⟩ := mapValue_reads.1 hset
      obtain ⟨t', rfl, ht', hnot⟩ := scaleFactor_reads.1 hx
      have hnumber : t'.value.Parsed := hts t' List.mem_cons_self
      rw [ht'] at hnumber
      obtain ⟨text, after, hnumber⟩ := hnumber
      have hscale := (Number.not_lt_zero_iff (isNumber_of_numberAt? hnumber)).1 hnot
      exact ⟨.scaled x, _, .scaled x hscale, rfl, rfl, by simp [ht, ht']⟩
    · cases hread
      obtain ⟨n, hn, rfl⟩ := mapValue_reads.1 hset
      obtain ⟨t', rfl, x, ht', hwhole, hvalue⟩ := layerIndex_reads.1 hn
      exact ⟨.layered n, _, .layered x n hwhole hvalue, rfl, rfl, by simp [ht, ht']⟩
    · cases hread
  complete {o piece ts rest} hts ho hpiece := by
    cases ho with
    | lies x y =>
      simp only [begins_cons, begins_nil] at hpiece
      obtain ⟨t, more, rfl, ht, t', more', rfl, hx, t'', more'', rfl, hy, rfl⟩ := hpiece
      refine ⟨t, _, _, rfl, ht, rfl, mapValue_reads.2 ⟨_, coordinates_reads.2 ?_, rfl⟩⟩
      exact ⟨t', t'', x, y, rfl, hx, hy, rfl⟩
    | scaled x hscale =>
      simp only [begins_cons, begins_nil] at hpiece
      obtain ⟨t, more, rfl, ht, t', more', rfl, ht', rfl⟩ := hpiece
      refine ⟨t, _, _, rfl, ht, rfl, mapValue_reads.2 ⟨x, scaleFactor_reads.2 ?_, rfl⟩⟩
      have hnumber : t'.value.Parsed := hts t' (by simp)
      rw [ht'] at hnumber
      obtain ⟨text, after, hnumber⟩ := hnumber
      exact ⟨t', rfl, ht', (Number.not_lt_zero_iff (isNumber_of_numberAt? hnumber)).2 hscale⟩
    | layered x n hwhole hvalue =>
      simp only [begins_cons, begins_nil] at hpiece
      obtain ⟨t, more, rfl, ht, t', more', rfl, ht', rfl⟩ := hpiece
      refine ⟨t, _, _, rfl, ht, rfl, mapValue_reads.2 ⟨n, layerIndex_reads.2 ?_, rfl⟩⟩
      exact ⟨t', rfl, x, ht', hwhole, hvalue⟩

/-! ### What options describe -/

/-- Options of this kind describe the values of a type: each value is said by some options, and
    each parameter is set by one option only. -/
structure Described (α : Type) [PhraseOption α] {ρ : Type} (opts : ρ → List α)
    (base : Params) (params : ρ → Params) : Prop where
  set_comm : ∀ (o o' : α) (p : Params), lead o ≠ lead o' →
    PhraseOption.set o (PhraseOption.set o' p) = PhraseOption.set o' (PhraseOption.set o p)
  nodup : ∀ r, ((opts r).map lead).Nodup
  empty : ∃ r, opts r = []
  insert : ∀ (o : α) (r : ρ), lead o ∉ (opts r).map lead → ∃ r', (o :: opts r).Perm (opts r')
  setAll_opts : ∀ r, setAll (opts r) base = params r

variable {α ρ : Type} [PhraseOption α] {opts : ρ → List α} {base out : Params}
  {params : ρ → Params}

theorem Described.exists_perm (h : Described α opts base params) {os : List α}
    (hnodup : (os.map lead).Nodup) : ∃ r, os.Perm (opts r) := by
  induction os with
  | nil =>
    obtain ⟨r, hr⟩ := h.empty
    exact ⟨r, by rw [hr]⟩
  | cons o os ih =>
    obtain ⟨hnew, hnodup⟩ := List.nodup_cons.1 hnodup
    obtain ⟨r, hr⟩ := ih hnodup
    obtain ⟨r', hr'⟩ := h.insert o r fun hmem => hnew ((hr.map lead).mem_iff.2 hmem)
    exact ⟨r', (hr.cons o).trans hr'⟩

theorem Described.setAll_perm (h : Described α opts base params) {os os' : List α}
    (hperm : os.Perm os') (hnodup : (os.map lead).Nodup) : setAll os base = setAll os' base := by
  refine hperm.foldl_eq' (fun o ho o' ho' p => ?_) base
  by_cases hlead : lead o = lead o'
  · rw [List.inj_on_of_nodup_map hnodup ho ho' hlead]
  · exact (h.set_comm o o' p hlead).symm

/-- Options up to the last token are those of a value, in any order. -/
theorem Described.options_eq_ok_iff (h : Described α opts base params) {table : OptionTable}
    (htable : table.Reads α) (hts : ∀ t ∈ ts, t.value.Parsed) :
    options table [] base ts = .ok out ↔
      ∃ r, InAnyOrder (opts r) (ts.map (·.value)) ∧ params r = out := by
  rw [Script.options_eq_ok_iff htable hts]
  constructor
  · rintro ⟨os, pieces, hspelled, hvalues, hnodup, -, rfl⟩
    obtain ⟨r, hperm⟩ := h.exists_perm hnodup
    obtain ⟨given, hgiven, hpieces⟩ := List.perm_comp_forall₂ hperm.symm hspelled
    refine ⟨r, ⟨given, pieces, hgiven, hpieces.symm, hvalues⟩, ?_⟩
    rw [h.setAll_perm hperm hnodup, h.setAll_opts]
  · rintro ⟨r, ⟨given, pieces, hgiven, hperm, hvalues⟩, rfl⟩
    have hcomp : (Relation.Comp (List.Forall₂ PhraseOption.Spelled) List.Perm) (opts r) pieces :=
      ⟨given, hgiven, hperm.symm⟩
    rw [List.forall₂_comp_perm_eq_perm_comp_forall₂] at hcomp
    obtain ⟨os, hos, hspelled⟩ := hcomp
    have hnodup : (os.map lead).Nodup := (hos.map lead).nodup_iff.1 (h.nodup r)
    refine ⟨os, pieces, hspelled, hvalues, hnodup, by simp, ?_⟩
    rw [h.setAll_perm hos.symm hnodup, h.setAll_opts]

theorem entrance_described (direction : Option Fade) :
    Described EntranceOption Entrance.options { direction } (Entrance.params · direction) where
  set_comm o o' p hne := by
    cases o <;> cases o' <;> first | rfl | exact absurd rfl hne
  nodup e := by
    obtain ⟨place, facing, emotion⟩ := e
    cases place <;> cases facing <;> cases emotion <;> simp [Entrance.options, lead]
  empty := ⟨{}, rfl⟩
  insert o e hnew := by
    obtain ⟨place, facing, emotion⟩ := e
    cases o with
    | stands given =>
      cases place with
      | some p => simp [Entrance.options, lead] at hnew
      | none => exact ⟨⟨some given, facing, emotion⟩, List.Perm.refl _⟩
    | faces given =>
      cases facing with
      | some f => simp [Entrance.options, lead] at hnew
      | none =>
        refine ⟨⟨place, some given, emotion⟩, ?_⟩
        simpa [Entrance.options] using List.perm_middle.symm
    | feels given =>
      cases emotion with
      | some m => simp [Entrance.options, lead] at hnew
      | none =>
        refine ⟨⟨place, facing, some given⟩, ?_⟩
        simp only [Entrance.options, Option.map_none, Option.toList_none, List.append_nil]
        exact (List.perm_append_singleton _ _).symm
  setAll_opts e := by
    obtain ⟨place, facing, emotion⟩ := e
    cases place <;> cases facing <;> cases emotion <;> rfl

theorem showing_described : Described ShowingOption Showing.options {} Showing.params where
  set_comm o o' p hne := by
    cases o <;> cases o' <;> first | rfl | exact absurd rfl hne
  nodup s := by
    obtain ⟨position, scale, layer⟩ := s
    cases position <;> cases scale <;> cases layer <;> simp [Showing.options, lead]
  empty := ⟨{}, rfl⟩
  insert o s hnew := by
    obtain ⟨position, scale, layer⟩ := s
    cases o with
    | lies x y =>
      cases position with
      | some p => simp [Showing.options, lead] at hnew
      | none => exact ⟨⟨some (x, y), scale, layer⟩, List.Perm.refl _⟩
    | scaled x =>
      cases scale with
      | some y => simp [Showing.options, lead] at hnew
      | none =>
        refine ⟨⟨position, some x, layer⟩, ?_⟩
        simpa [Showing.options] using List.perm_middle.symm
    | layered n =>
      cases layer with
      | some m => simp [Showing.options, lead] at hnew
      | none =>
        refine ⟨⟨position, scale, some n⟩, ?_⟩
        simp only [Showing.options, Option.map_none, Option.toList_none, List.append_nil]
        exact (List.perm_append_singleton _ _).symm
  setAll_opts s := by
    obtain ⟨position, scale, layer⟩ := s
    cases position <;> cases scale <;> cases layer <;> rfl

/-! ### Phrases -/

theorem nameOrText_reads_label {what name : String} :
    (nameOrText what ts).Reads name rest ↔ ∃ t, ts = t :: rest ∧ IsLabel t.value name := by
  rw [nameOrText_reads]
  refine exists_congr fun t => and_congr_right fun _ => ⟨?_, fun h => ?_⟩
  · rintro (hword | ⟨e, htext, hnone, rfl⟩)
    · rw [hword]
      exact .word name
    · rw [htext]
      exact .text e hnone
  · generalize t.value = v at h
    cases h with
    | word => exact .inl rfl
    | text e hnone => exact .inr ⟨e, rfl, hnone, rfl⟩

theorem member_reads_word {α : Type} [Vocabulary α] {a : α}
    (ha : Vocabulary.ofWord? (Vocabulary.word a) = some a) :
    (member α ts).Reads a rest ↔ ∃ t, ts = t :: rest ∧ t.value = .word (Vocabulary.word a) := by
  rw [member_reads]
  constructor
  · rintro ⟨t, w, rfl, ht, hw⟩
    obtain rfl := Vocabulary.word_of_ofWord? hw
    exact ⟨t, rfl, ht⟩
  · rintro ⟨t, rfl, ht⟩
    exact ⟨t, _, rfl, ht, ha⟩

theorem facing_reads {f : Facing} :
    (member Facing ts).Reads f rest ↔ ∃ t, ts = t :: rest ∧ t.value = .word (Vocabulary.word f) :=
  member_reads_word (by cases f <;> rfl)

theorem fade_reads {f : Fade} :
    (member Fade ts).Reads f rest ↔ ∃ t, ts = t :: rest ∧ t.value = .word (Vocabulary.word f) :=
  member_reads_word (by cases f <;> rfl)

theorem panel_reads {p : Panel} :
    (member Panel ts).Reads p rest ↔ ∃ t, ts = t :: rest ∧ t.value = .word (Vocabulary.word p) :=
  member_reads_word (by cases p <;> rfl)

variable {d : StageDirection}

theorem scenePhrase_eq_ok : scenePhrase ts = .ok d ↔
    ∃ p : Phrase, p.Spelled (.word "Scene" :: ts.map (·.value)) ∧ p.direction = d := by
  simp only [scenePhrase, atEnd_eq_ok, andThen_reads, mapValue_reads, nameOrText_reads_label,
    keyword_reads]
  constructor
  · rintro ⟨name, -, ⟨t, rfl, hname⟩, w, ⟨t', rfl, ht', hw⟩, rfl⟩
    obtain rfl := List.mem_singleton.1 hw
    simp only [List.map_cons, List.map_nil, ht']
    exact ⟨_, .sceneBegins hname, rfl⟩
  · rintro ⟨p, hp, rfl⟩
    generalize hvalues : TokenValue.word "Scene" :: _ = vs at hp
    cases hp with
    | @sceneBegins v name hname =>
      simp only [List.cons.injEq, true_and, List.map_eq_cons_iff, List.map_eq_nil_iff] at hvalues
      obtain ⟨t, -, rfl, rfl, t', -, rfl, ht', rfl⟩ := hvalues
      exact ⟨name, [t'], ⟨t, rfl, hname⟩, _, ⟨t', rfl, ht', List.mem_singleton_self _⟩, rfl⟩
    | _ => grind [Phrase.heads]

theorem backgroundPhrase_eq_ok : backgroundPhrase ts = .ok d ↔
    ∃ p : Phrase, p.Spelled (.word "Background" :: ts.map (·.value)) ∧ p.direction = d := by
  simp only [backgroundPhrase, atEnd_eq_ok, andThen_reads, mapValue_reads, nameOrText_reads_label,
    keyword_reads]
  constructor
  · rintro ⟨w, -, ⟨t, rfl, ht, hw⟩, w', -, ⟨t', rfl, ht', hw'⟩, id, ⟨t'', rfl, hid⟩, rfl⟩
    obtain rfl := List.mem_singleton.1 hw
    obtain rfl := List.mem_singleton.1 hw'
    simp only [List.map_cons, List.map_nil, ht, ht']
    exact ⟨_, .backgroundChanges hid, rfl⟩
  · rintro ⟨p, hp, rfl⟩
    generalize hvalues : TokenValue.word "Background" :: _ = vs at hp
    cases hp with
    | @backgroundChanges v id hid =>
      simp only [List.cons.injEq, true_and, List.map_eq_cons_iff, List.map_eq_nil_iff] at hvalues
      obtain ⟨t, -, rfl, ht, t', -, rfl, ht', t'', -, rfl, rfl, rfl⟩ := hvalues
      exact ⟨_, _, ⟨t, rfl, ht, List.mem_singleton_self _⟩, _, _,
        ⟨t', rfl, ht', List.mem_singleton_self _⟩, id, ⟨t'', rfl, hid⟩, rfl⟩
    | _ => grind [Phrase.heads]

/-- A scaling mode, if there is one, is the last token. -/
theorem optionalMember_reads_end {scaling : Option Scaling} :
    (optionalMember Scaling ts).Reads scaling [] ↔
      ts.map (·.value) = (scaling.map fun s => TokenValue.word (Vocabulary.word s)).toList := by
  rw [optionalMember_reads]
  constructor
  · rintro (⟨t, rfl, ⟨s, hs⟩, rfl⟩ | ⟨-, rfl, rfl⟩)
    · obtain ⟨w, hw, hmember⟩ := Option.bind_eq_some_iff.1 hs
      obtain rfl := Vocabulary.word_of_ofWord? hmember
      rw [hs]
      exact congrArg (fun v => [v]) (TokenValue.word?_eq_some.1 hw)
    · rfl
  · cases scaling with
    | none =>
      intro hvalues
      exact .inr ⟨by simp [List.map_eq_nil_iff.1 hvalues], rfl, List.map_eq_nil_iff.1 hvalues⟩
    | some s =>
      intro hvalues
      have hword : Vocabulary.ofWord? (Vocabulary.word s) = some s := by cases s <;> rfl
      obtain ⟨t, more, rfl, ht, hnil⟩ := List.map_eq_cons_iff.1 hvalues
      obtain rfl := List.map_eq_nil_iff.1 hnil
      have hmember : t.value.member? Scaling = some s := by
        rw [ht]
        exact hword
      exact .inl ⟨t, rfl, ⟨s, hmember⟩, hmember.symm⟩

theorem panelPhrase_eq_ok : panelPhrase ts = .ok d ↔
    ∃ p : Phrase, p.Spelled (.word "GUI" :: ts.map (·.value)) ∧ p.direction = d := by
  simp only [panelPhrase, atEnd_eq_ok, andThen_reads, mapValue_reads, nameOrText_reads_label,
    keyword_reads, panel_reads, optionalMember_reads_end]
  constructor
  · rintro ⟨panel, -, ⟨t, rfl, ht⟩, w, -, ⟨t', rfl, ht', hw⟩, w', -, ⟨t'', rfl, ht'', hw'⟩, id,
      more, ⟨t₃, rfl, hid⟩, scaling, hscaling, rfl⟩
    obtain rfl := List.mem_singleton.1 hw
    obtain rfl := List.mem_singleton.1 hw'
    simp only [List.map_cons, ht, ht', ht'', hscaling]
    exact ⟨_, .panelChanges panel hid scaling, rfl⟩
  · rintro ⟨p, hp, rfl⟩
    generalize hvalues : TokenValue.word "GUI" :: _ = vs at hp
    cases hp with
    | @panelChanges panel v id hid scaling =>
      simp only [List.cons.injEq, true_and, List.map_eq_cons_iff] at hvalues
      obtain ⟨t, -, rfl, ht, t', -, rfl, ht', t'', -, rfl, ht'', t₃, more, rfl, rfl, hmore⟩ :=
        hvalues
      exact ⟨panel, _, ⟨t, rfl, ht⟩, _, _, ⟨t', rfl, ht', List.mem_singleton_self _⟩, _, _,
        ⟨t'', rfl, ht'', List.mem_singleton_self _⟩, id, more, ⟨t₃, rfl, hid⟩, scaling, hmore, rfl⟩
    | _ => grind [Phrase.heads]

/-- A phrase is read up to its verb, which decides how it goes on. -/
theorem verb_eq_ok {subject : String} {verbs : List String}
    {finish : String → List Token → Except Flaw StageDirection} :
    finishWith (verb subject verbs ts) finish = .ok d ↔
      ∃ t w rest, ts = t :: rest ∧ t.value = .word w ∧ w ∈ verbs ∧ finish w rest = .ok d := by
  simp only [finishWith_eq_ok, verb_reads]
  constructor
  · rintro ⟨w, rest, ⟨t, rfl, ht, hw⟩, h⟩
    exact ⟨t, w, rest, rfl, ht, hw, h⟩
  · rintro ⟨t, w, rest, rfl, ht, hw, h⟩
    exact ⟨w, rest, ⟨t, rfl, ht, hw⟩, h⟩

/-- What is read of an actor is spelled like a phrase. -/
theorem actorPhrase_spelled {name : String} (hname : name ∉ Phrase.heads)
    (hts : ∀ t ∈ ts, t.value.Parsed) (h : actorPhrase name ts = .ok d) :
    ∃ p : Phrase, p.Spelled (.word name :: ts.map (·.value)) ∧ p.direction = d := by
  obtain ⟨t, w, rest, rfl, ht, hw, h⟩ := verb_eq_ok.1 h
  obtain ⟨-, hrest⟩ := List.forall_mem_cons.1 hts
  simp only [List.map_cons, ht]
  simp only [List.mem_cons, List.not_mem_nil, or_false] at hw
  rcases hw with rfl | rfl | rfl | rfl | rfl
  · obtain ⟨out, hout, rfl⟩ := map_eq_ok.1 h
    obtain ⟨e, he, rfl⟩ :=
      ((entrance_described none).options_eq_ok_iff actorOptions_reads hrest).1 hout
    exact ⟨_, .actorAppears hname he, rfl⟩
  · obtain ⟨rfl, rfl⟩ := done_reads.1 (atEnd_eq_ok.1 h)
    exact ⟨_, .actorDisappears hname, rfl⟩
  · obtain ⟨fade, more, hfade, h⟩ := finishWith_eq_ok.1 h
    obtain ⟨t', rfl, ht'⟩ := fade_reads.1 hfade
    simp only [List.map_cons, ht']
    cases fade with
    | fadeIn =>
      obtain ⟨-, hmore⟩ := List.forall_mem_cons.1 hrest
      obtain ⟨out, hout, rfl⟩ := map_eq_ok.1 h
      obtain ⟨e, he, rfl⟩ :=
        ((entrance_described (some .fadeIn)).options_eq_ok_iff actorOptions_reads hmore).1 hout
      exact ⟨_, .actorFadesIn hname he, rfl⟩
    | fadeOut =>
      obtain ⟨rfl, rfl⟩ := done_reads.1 (atEnd_eq_ok.1 h)
      exact ⟨_, .actorFadesOut hname, rfl⟩
  · obtain ⟨w, more, hto, hmove⟩ := andThen_reads.1 (atEnd_eq_ok.1 h)
    obtain ⟨t', rfl, ht', hw⟩ := keyword_reads.1 hto
    obtain rfl := List.mem_singleton.1 hw
    obtain ⟨p, hp, rfl⟩ := mapValue_reads.1 hmove
    rw [List.map_cons, ht', begins_nil_right.1 (place_reads.1 hp)]
    exact ⟨_, .actorMoves hname p, rfl⟩
  · obtain ⟨f, hf, rfl⟩ := mapValue_reads.1 (atEnd_eq_ok.1 h)
    obtain ⟨t', rfl, ht'⟩ := facing_reads.1 hf
    rw [List.map_cons, ht']
    exact ⟨_, .actorLooks hname f, rfl⟩

/-- What is spelled like a phrase about an actor is read as one. -/
theorem actorPhrase_of_spelled {name : String} (hname : name ∉ Phrase.heads)
    (hts : ∀ t ∈ ts, t.value.Parsed) {p : Phrase}
    (hp : p.Spelled (.word name :: ts.map (·.value))) : actorPhrase name ts = .ok p.direction := by
  generalize hvalues : TokenValue.word name :: ts.map (·.value) = vs at hp
  refine verb_eq_ok.2 ?_
  -- the verb decides which phrase it is
  cases hp with
  | @actorAppears _ e vs _ he =>
    simp only [List.cons.injEq, TokenValue.word.injEq, List.map_eq_cons_iff] at hvalues
    obtain ⟨rfl, t, rest, rfl, ht, rfl⟩ := hvalues
    obtain ⟨-, hrest⟩ := List.forall_mem_cons.1 hts
    refine ⟨t, _, rest, rfl, ht, by simp, map_eq_ok.2 ⟨_, ?_, rfl⟩⟩
    exact ((entrance_described none).options_eq_ok_iff actorOptions_reads hrest).2 ⟨e, he, rfl⟩
  | actorDisappears _ =>
    simp only [List.cons.injEq, TokenValue.word.injEq, List.map_eq_cons_iff,
      List.map_eq_nil_iff] at hvalues
    obtain ⟨rfl, t, -, rfl, ht, rfl⟩ := hvalues
    exact ⟨t, _, [], rfl, ht, by simp, rfl⟩
  | @actorFadesIn _ e vs _ he =>
    simp only [List.cons.injEq, TokenValue.word.injEq, List.map_eq_cons_iff] at hvalues
    obtain ⟨rfl, t, -, rfl, ht, t', more, rfl, ht', rfl⟩ := hvalues
    obtain ⟨-, hmore⟩ := List.forall_mem_cons.1 (List.forall_mem_cons.1 hts).2
    refine ⟨t, _, _, rfl, ht, by simp, ?_⟩
    refine finishWith_eq_ok.2 ⟨.fadeIn, more, fade_reads.2 ⟨t', rfl, ht'⟩, ?_⟩
    refine map_eq_ok.2 ⟨_, ?_, rfl⟩
    exact ((entrance_described (some .fadeIn)).options_eq_ok_iff actorOptions_reads hmore).2
      ⟨e, he, rfl⟩
  | actorFadesOut _ =>
    simp only [List.cons.injEq, TokenValue.word.injEq, List.map_eq_cons_iff,
      List.map_eq_nil_iff] at hvalues
    obtain ⟨rfl, t, -, rfl, ht, t', -, rfl, ht', rfl⟩ := hvalues
    refine ⟨t, _, _, rfl, ht, by simp, ?_⟩
    exact finishWith_eq_ok.2 ⟨.fadeOut, [], fade_reads.2 ⟨t', rfl, ht'⟩, rfl⟩
  | actorMoves _ place =>
    simp only [List.cons.injEq, TokenValue.word.injEq, List.map_eq_cons_iff] at hvalues
    obtain ⟨rfl, t, -, rfl, ht, t', more, rfl, ht', hmore⟩ := hvalues
    refine ⟨t, _, _, rfl, ht, by simp, atEnd_eq_ok.2 (andThen_reads.2 ?_)⟩
    refine ⟨_, more, keyword_reads.2 ⟨t', rfl, ht', by simp⟩, mapValue_reads.2 ?_⟩
    exact ⟨place, place_reads.2 (begins_nil_right.2 hmore), rfl⟩
  | actorLooks _ facing =>
    simp only [List.cons.injEq, TokenValue.word.injEq, List.map_eq_cons_iff,
      List.map_eq_nil_iff] at hvalues
    obtain ⟨rfl, t, -, rfl, ht, t', -, rfl, ht', rfl⟩ := hvalues
    refine ⟨t, _, _, rfl, ht, by simp, ?_⟩
    exact atEnd_eq_ok.2 (mapValue_reads.2 ⟨facing, facing_reads.2 ⟨t', rfl, ht'⟩, rfl⟩)
  | _ => grind [Phrase.heads]

/-- What is read of an animation is spelled like a phrase. -/
theorem animationPhrase_spelled (hts : ∀ t ∈ ts, t.value.Parsed)
    (h : animationPhrase ts = .ok d) :
    ∃ p : Phrase, p.Spelled (.word "Animation" :: ts.map (·.value)) ∧ p.direction = d := by
  obtain ⟨name, behind, hname, hsaid⟩ := finishWith_eq_ok.1 h
  obtain ⟨tname, rfl, htname⟩ := identifier_reads.1 hname
  obtain ⟨t, w, rest, rfl, ht, hw, h⟩ := verb_eq_ok.1 hsaid
  obtain ⟨-, hrest⟩ := List.forall_mem_cons.1 (List.forall_mem_cons.1 hts).2
  simp only [List.map_cons, htname, ht]
  simp only [List.mem_cons, List.not_mem_nil, or_false] at hw
  rcases hw with rfl | rfl | rfl | rfl
  · obtain ⟨out, hout, rfl⟩ := map_eq_ok.1 h
    obtain ⟨s, hs, rfl⟩ := (showing_described.options_eq_ok_iff animationOptions_reads hrest).1 hout
    exact ⟨_, .animationAppears hs, rfl⟩
  · obtain ⟨fade, hfade, rfl⟩ := mapValue_reads.1 (atEnd_eq_ok.1 h)
    obtain ⟨t', rfl, ht'⟩ := fade_reads.1 hfade
    rw [List.map_cons, ht']
    exact ⟨_, .animationFades name fade, rfl⟩
  · obtain ⟨w, more, hto, hmove⟩ := andThen_reads.1 (atEnd_eq_ok.1 h)
    obtain ⟨t', rfl, ht', hw⟩ := keyword_reads.1 hto
    obtain rfl := List.mem_singleton.1 hw
    obtain ⟨p, hp, rfl⟩ := mapValue_reads.1 hmove
    obtain ⟨tx, ty, x, y, rfl, hx, hy, rfl⟩ := coordinates_reads.1 hp
    simp only [List.map_cons, ht', hx, hy]
    exact ⟨_, .animationMoves name x y, rfl⟩
  · obtain ⟨f, hf, rfl⟩ := mapValue_reads.1 (atEnd_eq_ok.1 h)
    obtain ⟨t', rfl, ht'⟩ := facing_reads.1 hf
    rw [List.map_cons, ht']
    exact ⟨_, .animationLooks name f, rfl⟩

/-- What is spelled like a phrase about an animation is read as one. -/
theorem animationPhrase_of_spelled (hts : ∀ t ∈ ts, t.value.Parsed) {p : Phrase}
    (hp : p.Spelled (.word "Animation" :: ts.map (·.value))) :
    animationPhrase ts = .ok p.direction := by
  generalize hvalues : TokenValue.word "Animation" :: ts.map (·.value) = vs at hp
  refine finishWith_eq_ok.2 ?_
  cases hp with
  | @animationAppears name s vs hs =>
    simp only [List.cons.injEq, true_and, List.map_eq_cons_iff] at hvalues
    obtain ⟨tname, -, rfl, htname, t, rest, rfl, ht, rfl⟩ := hvalues
    obtain ⟨-, hrest⟩ := List.forall_mem_cons.1 (List.forall_mem_cons.1 hts).2
    refine ⟨name, _, identifier_reads.2 ⟨tname, rfl, htname⟩, verb_eq_ok.2 ?_⟩
    refine ⟨t, _, rest, rfl, ht, by simp, map_eq_ok.2 ⟨_, ?_, rfl⟩⟩
    exact (showing_described.options_eq_ok_iff animationOptions_reads hrest).2 ⟨s, hs, rfl⟩
  | animationFades name fade =>
    simp only [List.cons.injEq, true_and, List.map_eq_cons_iff, List.map_eq_nil_iff] at hvalues
    obtain ⟨tname, -, rfl, htname, t, -, rfl, ht, t', -, rfl, ht', rfl⟩ := hvalues
    refine ⟨name, _, identifier_reads.2 ⟨tname, rfl, htname⟩, verb_eq_ok.2 ?_⟩
    refine ⟨t, _, _, rfl, ht, by simp, ?_⟩
    exact atEnd_eq_ok.2 (mapValue_reads.2 ⟨fade, fade_reads.2 ⟨t', rfl, ht'⟩, rfl⟩)
  | animationMoves name x y =>
    simp only [List.cons.injEq, true_and, List.map_eq_cons_iff, List.map_eq_nil_iff] at hvalues
    obtain ⟨tname, -, rfl, htname, t, -, rfl, ht, t', -, rfl, ht', tx, -, rfl, hx, ty, -, rfl, hy,
      rfl⟩ := hvalues
    refine ⟨name, _, identifier_reads.2 ⟨tname, rfl, htname⟩, verb_eq_ok.2 ?_⟩
    refine ⟨t, _, _, rfl, ht, by simp, atEnd_eq_ok.2 (andThen_reads.2 ?_)⟩
    refine ⟨_, _, keyword_reads.2 ⟨t', rfl, ht', by simp⟩, mapValue_reads.2 ?_⟩
    exact ⟨_, coordinates_reads.2 ⟨tx, ty, x, y, rfl, hx, hy, rfl⟩, rfl⟩
  | animationLooks name facing =>
    simp only [List.cons.injEq, true_and, List.map_eq_cons_iff, List.map_eq_nil_iff] at hvalues
    obtain ⟨tname, -, rfl, htname, t, -, rfl, ht, t', -, rfl, ht', rfl⟩ := hvalues
    refine ⟨name, _, identifier_reads.2 ⟨tname, rfl, htname⟩, verb_eq_ok.2 ?_⟩
    refine ⟨t, _, _, rfl, ht, by simp, ?_⟩
    exact atEnd_eq_ok.2 (mapValue_reads.2 ⟨facing, facing_reads.2 ⟨t', rfl, ht'⟩, rfl⟩)
  | _ => grind [Phrase.heads]

/-- What is accepted is spelled like a phrase, and the phrase says the direction. -/
theorem phrase_eq_ok_iff (hts : ∀ t ∈ ts, t.value.Parsed) : phrase ts = .ok d ↔
    ∃ p : Phrase, p.Spelled (ts.map (·.value)) ∧ p.direction = d := by
  cases ts with
  | nil =>
    refine ⟨(fun h => by cases h), ?_⟩
    rintro ⟨p, hp, -⟩
    generalize hvalues : ([] : List Token).map (·.value) = vs at hp
    cases hp <;> cases hvalues
  | cons head rest =>
    obtain ⟨-, hrest⟩ := List.forall_mem_cons.1 hts
    unfold phrase
    dsimp only
    rw [List.map_cons]
    split
    · next hword =>
      refine ⟨(fun h => by cases h), ?_⟩
      rintro ⟨p, hp, -⟩
      have hhead (w : String) : head.value ≠ .word w := fun hw => by
        rw [hw] at hword
        cases hword
      generalize hvalues : head.value :: _ = vs at hp
      cases hp <;> exact absurd (List.cons.inj hvalues).1 (hhead _)
    · next hword => rw [TokenValue.word?_eq_some.1 hword, scenePhrase_eq_ok]
    · next hword => rw [TokenValue.word?_eq_some.1 hword, backgroundPhrase_eq_ok]
    · next hword => rw [TokenValue.word?_eq_some.1 hword, panelPhrase_eq_ok]
    · next hword =>
      rw [TokenValue.word?_eq_some.1 hword]
      refine ⟨animationPhrase_spelled hrest, ?_⟩
      rintro ⟨p, hp, rfl⟩
      exact animationPhrase_of_spelled hrest hp
    · next name hscene hbackground hgui hanimation hword =>
      have hname : name ∉ Phrase.heads := by
        simp only [Phrase.heads, List.mem_cons, List.not_mem_nil, or_false, not_or]
        exact ⟨hscene, hbackground, hgui, hanimation⟩
      rw [TokenValue.word?_eq_some.1 hword]
      refine ⟨actorPhrase_spelled hname hrest, ?_⟩
      rintro ⟨p, hp, rfl⟩
      exact actorPhrase_of_spelled hname hrest hp

/-- The reader accepts exactly the phrases of the grammar and answers what they say; the order of
    the options makes no difference. -/
theorem phrase_accepts_grammar (ts : List Token) (hts : ∀ t ∈ ts, t.value.Parsed) :
    (∀ d, phrase ts = .ok d ↔
      ∃ p : Phrase, p.Spelled (ts.map (·.value)) ∧ p.direction = d) ∧
    ∀ ts', Phrase.Reordered (ts.map (·.value)) (ts'.map (·.value)) →
      ∀ d, phrase ts = .ok d ↔ phrase ts' = .ok d := by
  refine ⟨fun d => phrase_eq_ok_iff hts, fun ts' hreordered d => ?_⟩
  have hts' : ∀ t ∈ ts', t.value.Parsed := by
    have hvalues : ∀ v ∈ ts.map (·.value), v.Parsed := by simpa using hts
    have hvalues' : ∀ v ∈ ts'.map (·.value), v.Parsed := fun v hv =>
      hvalues v (hreordered.perm.mem_iff.2 hv)
    simpa using hvalues'
  rw [phrase_eq_ok_iff hts, phrase_eq_ok_iff hts']
  constructor
  · rintro ⟨p, hp, hd⟩
    exact ⟨p, hp.reordered hreordered, hd⟩
  · rintro ⟨p, hp, hd⟩
    exact ⟨p, hp.reordered hreordered.symm, hd⟩

theorem spark_appears_in_any_order :
    let word (w : String) : Token := ⟨.word w, w.toList, []⟩
    let half : Float := Number.ofDecimal false 5 (-1)
    let two : Float := Number.ofDecimal false 2 0
    let head := [word "Animation", word "spark", word "appears"]
    let scale := [word "scale", ⟨.number half, ['.', '5'], []⟩]
    let layer := [word "layer", ⟨.number two, ['2'], []⟩]
    let said := (Phrase.animationAppears "spark" { scale := some half, layer := some 2 }).direction
    phrase (head ++ scale ++ layer) = .ok said ∧ phrase (head ++ layer ++ scale) = .ok said := by
  intro word half two head scale layer said
  have hhalf : TokenValue.Parsed (.number half) := ⟨['0', '.', '5'], [], rfl⟩
  have htwo : TokenValue.Parsed (.number two) := ⟨['2'], [], rfl⟩
  have hspelled : ShowingOption.Spelled (.scaled half) [.word "scale", .number half] :=
    .scaled half (by decide +kernel)
  have hspelled' : ShowingOption.Spelled (.layered 2) [.word "layer", .number two] :=
    .layered two 2 (by decide +kernel) (by decide +kernel)
  have hts : ∀ t ∈ head ++ scale ++ layer, t.value.Parsed := by
    simp [head, scale, layer, word, TokenValue.Parsed] at hhalf htwo ⊢
    exact ⟨hhalf, htwo⟩
  obtain ⟨haccepts, horder⟩ := phrase_accepts_grammar _ hts
  have hpieces : List.Forall₂ PhraseOption.Spelled
      (Showing.options { scale := some half, layer := some 2 })
      [[.word "scale", .number half], [.word "layer", .number two]] :=
    .cons hspelled (.cons hspelled' .nil)
  have hsaid : phrase (head ++ scale ++ layer) = .ok said :=
    (haccepts said).2 ⟨_, .animationAppears ⟨_, _, hpieces, List.Perm.refl _, rfl⟩, rfl⟩
  refine ⟨hsaid, (horder (head ++ layer ++ scale) ?_ said).1 hsaid⟩
  exact .animationAppears ⟨_, [[.word "layer", .number two], [.word "scale", .number half]],
    exists_of_forall₂ hpieces, List.Perm.swap _ _ _, rfl, rfl⟩

end VisualNovel.Script

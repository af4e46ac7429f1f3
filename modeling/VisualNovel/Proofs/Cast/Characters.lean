import Mathlib.Data.List.Forall2
import Mathlib.Data.List.Induction
import VisualNovel.Proofs.Cast.Definitions
import VisualNovel.Proofs.Table
import VisualNovel.Proofs.Text.Trimming

/-!
The characters that definitions define. A definition names its outfits and emotions by data of any
kind, and a character has them under the texts of those. So of entries with the same text the last
one counts, and a name without a text cannot be asked for. Whatever is accepted is complete: it can
be drawn as it is.
-/

namespace VisualNovel

/-! ### Tables that are filled entry by entry -/

namespace Table

variable {α β ε : Type}

/-- The table of named values that are put in one after the other. -/
def ofNamed (named : List (String × β)) : Table String β :=
  named.foldl (fun t p => t.put p.1 p.2) []

theorem ofNamed_concat (named : List (String × β)) (p : String × β) :
    ofNamed (named ++ [p]) = (ofNamed named).put p.1 p.2 := by
  unfold ofNamed
  rw [List.foldl_append]
  rfl

/-- Of the values of a name the last one is found. -/
theorem get?_ofNamed (named : List (String × β)) (name : String) :
    (ofNamed named).get? name = (named.reverse.find? fun p => p.1 == name).map (·.2) := by
  induction named using List.reverseRecOn with
  | nil => rfl
  | append_singleton named p ih =>
    rw [ofNamed_concat, get?_put, ih, List.reverse_append]
    by_cases hname : name = p.1
    · simp [hname]
    · simp [hname, Ne.symm hname]

theorem mem_of_mem_ofNamed {named : List (String × β)} {p : String × β} (h : p ∈ ofNamed named) :
    p ∈ named := by
  induction named using List.reverseRecOn with
  | nil => cases h
  | append_singleton named q ih =>
    rw [ofNamed_concat] at h
    rcases eq_or_mem_of_mem_put h with rfl | hmem
    · simp
    · exact List.mem_append_left _ (ih hmem)

/-- The first name keeps its place. -/
theorem head_ofNamed (p : String × β) (named : List (String × β)) :
    ((ofNamed (p :: named)).head?.map (·.1)) = some p.1 := by
  induction named using List.reverseRecOn with
  | nil => rfl
  | append_singleton named q ih =>
    rw [← List.cons_append, ofNamed_concat]
    cases h : ofNamed (p :: named) with
    | nil =>
      rw [h] at ih
      cases ih
    | cons first rest =>
      rw [h] at ih
      unfold put
      split
      · rw [← ih]
        simp only [List.map_cons, List.head?_cons, Option.map_some]
        split <;> rfl
      · rw [← ih]
        rfl

/-- A table that is filled by a reading of entries, where each entry is read on its own. -/
theorem foldlM_put_eq_ok_iff {f : Table String β → α → Except ε (Table String β)}
    {Reads : α → String × β → Prop}
    (hf : ∀ t x t', f t x = .ok t' ↔ ∃ p, Reads x p ∧ t' = put t p.1 p.2) (xs : List α)
    (t' : Table String β) :
    xs.foldlM f [] = .ok t' ↔ ∃ named, List.Forall₂ Reads xs named ∧ t' = ofNamed named := by
  unfold ofNamed
  generalize ([] : Table String β) = t
  induction xs generalizing t with
  | nil =>
    simp only [List.foldlM_nil, List.forall₂_nil_left_iff, exists_eq_left, List.foldl_nil]
    exact ⟨fun h => (Except.ok.inj h).symm, fun h => congrArg _ h.symm⟩
  | cons x xs ih =>
    rw [List.foldlM_cons]
    cases hx : f t x with
    | error e =>
      refine ⟨fun h => (by cases h), ?_⟩
      rintro ⟨named, hreads, -⟩
      obtain ⟨p, rest, hp, -, -⟩ := List.forall₂_cons_left_iff.1 hreads
      rw [(hf t x _).2 ⟨p, hp, rfl⟩] at hx
      cases hx
    | ok t₁ =>
      obtain ⟨p, hp, rfl⟩ := (hf t x t₁).1 hx
      refine (ih (put t p.1 p.2)).trans ⟨?_, ?_⟩
      · rintro ⟨named, hreads, rfl⟩
        exact ⟨p :: named, .cons hp hreads, rfl⟩
      · rintro ⟨named, hreads, rfl⟩
        obtain ⟨q, rest, hq, hrest, rfl⟩ := List.forall₂_cons_left_iff.1 hreads
        have hput : put t p.1 p.2 = put t q.1 q.2 := by
          have hq' := (hf t x _).2 ⟨q, hq, rfl⟩
          rw [hx] at hq'
          exact Except.ok.inj hq'
        exact ⟨rest, hrest, by rw [hput]; rfl⟩

end Table

/-! ### Texts of definitions -/

/-- A text that neither begins nor ends with a blank, and is not empty. -/
def IsTrimmed (s : String) : Prop :=
  s ≠ "" ∧ (∀ c ∈ s.toList.head?, Text.isBlank c = false) ∧
    ∀ c ∈ s.toList.getLast?, Text.isBlank c = false

theorem isTrimmed_of_trimmed? {s t : String} (h : trimmed? s = some t) : IsTrimmed t := by
  unfold trimmed? at h
  dsimp only at h
  split at h
  · cases h
  · next hnonempty =>
    cases h
    unfold IsTrimmed
    rw [String.toList_ofList]
    refine ⟨fun h => hnonempty ?_, ?_, ?_⟩
    · rw [List.isEmpty_iff, ← String.toList_ofList (l := Text.trim s.toList), h]
      rfl
    · exact Text.Ends.of_prefix (Text.ends_dropWhile _ _) (Text.trimEnd_prefix _)
    · unfold Text.trim Text.trimEnd
      rw [List.getLast?_reverse]
      exact Text.ends_dropWhile _ _

theorem Data.isTrimmed_of_trimmed? {d : Data} {t : String} (h : d.trimmed? = some t) :
    IsTrimmed t := by
  cases d with
  | text s => exact VisualNovel.isTrimmed_of_trimmed? h
  | _ => cases h

/-- What the last entry with a text holds. -/
def Data.last? (name : String) (entries : List (Data × Data)) : Option Data :=
  (entries.reverse.find? fun e => e.1.display == name).map (·.2)

/-- An entry with a key, whose text no later entry has. -/
def Data.Prevails (key value : Data) (entries : List (Data × Data)) : Prop :=
  ∃ before after, entries = before ++ (key, value) :: after ∧
    ∀ e ∈ after, e.1.display ≠ key.display

theorem Data.last?_of_prevails {key value : Data} {entries : List (Data × Data)}
    (h : Prevails key value entries) : last? key.display entries = some value := by
  obtain ⟨before, after, rfl, hafter⟩ := h
  have hnone : after.reverse.find? (fun e => e.1.display == key.display) = none :=
    List.find?_eq_none.2 fun e he => by simpa using hafter e (List.mem_reverse.1 he)
  unfold last?
  rw [List.reverse_append, List.reverse_cons, List.append_assoc, List.find?_append, hnone]
  simp

theorem Data.entries?_eq_some_iff {d : Data} {entries : List (Data × Data)} :
    d.entries? = some entries ↔ d = .map entries := by
  cases d <;> simp [entries?]

namespace Character

/-- An entry of an outfit, as an emotion with its sprite. -/
def NamesSprite (entry : Data × Data) (p : String × String) : Prop :=
  entry.1.display? = some p.1 ∧ entry.2.trimmed? = some p.2

/-- An entry of the outfits, as an outfit with the sprites of its emotions. -/
def NamesOutfit (entry : Data × Data) (p : String × Table String String) : Prop :=
  entry.1.display? = some p.1 ∧ ∃ emotions named, entry.2 = .map emotions ∧ emotions ≠ [] ∧
    List.Forall₂ NamesSprite emotions named ∧ p.2 = Table.ofNamed named

/-- What a default is: the text of what is given for it, if that counts as given. -/
def Defaults (entries : List (Data × Data)) (key first value : String) : Prop :=
  (∃ d, Data.get? key entries = some d ∧ d.isTruthy ∧ d.display? = some value) ∨
    (∀ d, Data.get? key entries = some d → d.isTruthy = false) ∧ value = first

/-- What the entries of a definition say of the character that they define. -/
structure Describes (entries : List (Data × Data)) (c : Character) : Prop where
  name : ∃ d, Data.get? "name" entries = some d ∧ d.trimmed? = some c.name
  outfits : ∃ outfits named, Data.get? "outfits" entries = some (.map outfits) ∧ outfits ≠ [] ∧
    List.Forall₂ NamesOutfit outfits named ∧ c.outfits = Table.ofNamed named
  outfit : Defaults entries "outfit" (firstName c.outfits) c.outfit
  emotion : ∃ emotions, c.outfits.get? c.outfit = some emotions ∧ emotions.has c.emotion ∧
    Defaults entries "emotion" (firstName emotions) c.emotion
  description : Defaults entries "description" "" c.description

variable {place : String} {entries : List (Data × Data)}

theorem textOf_eq_ok_iff {d : Data} {text : String} :
    textOf d = .ok text ↔ d.display? = some text := by
  unfold textOf
  cases d.display? <;> simp

theorem readEmotions_eq_ok_iff {outfit : String} {emotions : List (Data × Data)}
    {t : Table String String} :
    readEmotions place outfit emotions = .ok t ↔
      ∃ named, List.Forall₂ NamesSprite emotions named ∧ t = Table.ofNamed named := by
  refine Table.foldlM_put_eq_ok_iff (fun t (key, value) t' => bind_eq_ok.trans ?_) emotions t
  constructor
  · rintro ⟨emotion, hemotion, h⟩
    split at h
    · next sprite hsprite =>
      cases h
      exact ⟨(emotion, sprite), ⟨textOf_eq_ok_iff.1 hemotion, hsprite⟩, rfl⟩
    · cases h
  · rintro ⟨⟨emotion, sprite⟩, ⟨hemotion, hsprite⟩, rfl⟩
    refine ⟨emotion, textOf_eq_ok_iff.2 hemotion, ?_⟩
    rw [hsprite]
    rfl

theorem readOutfits_eq_ok_iff {outfits : List (Data × Data)}
    {t : Table String (Table String String)} :
    readOutfits place outfits = .ok t ↔
      ∃ named, List.Forall₂ NamesOutfit outfits named ∧ t = Table.ofNamed named := by
  refine Table.foldlM_put_eq_ok_iff (fun t (key, value) t' => bind_eq_ok.trans ?_) outfits t
  constructor
  · rintro ⟨outfit, houtfit, h⟩
    split at h
    · next first rest hvalue =>
      obtain ⟨table, htable, h⟩ := bind_eq_ok.1 h
      cases h
      obtain ⟨named, hnamed, rfl⟩ := readEmotions_eq_ok_iff.1 htable
      exact ⟨(outfit, _), ⟨textOf_eq_ok_iff.1 houtfit, _, named,
        Data.entries?_eq_some_iff.1 hvalue, List.cons_ne_nil _ _, hnamed, rfl⟩, rfl⟩
    · cases h
  · rintro ⟨⟨outfit, table⟩, ⟨houtfit, emotions, named, hvalue, hne, hnamed, rfl⟩, rfl⟩
    obtain ⟨first, rest, rfl⟩ := List.exists_cons_of_ne_nil hne
    refine ⟨outfit, textOf_eq_ok_iff.2 houtfit, ?_⟩
    rw [Data.entries?_eq_some_iff.2 hvalue]
    exact bind_eq_ok.2 ⟨_, readEmotions_eq_ok_iff.2 ⟨named, hnamed, rfl⟩, rfl⟩

theorem choice?_of_given {key : String} {d : Data} (hget : Data.get? key entries = some d)
    (h : d.isTruthy) : choice? entries key = (textOf d).map some := by
  unfold choice?
  rw [hget, Option.filter_some, if_pos h]
  show (do return some (← textOf d)) = (textOf d).map some
  cases textOf d <;> rfl

theorem choice?_of_not_given {key : String}
    (h : ∀ d, Data.get? key entries = some d → d.isTruthy = false) :
    choice? entries key = .ok none := by
  have hfilter : (Data.get? key entries).filter Data.isTruthy = none :=
    Option.filter_eq_none_iff.2 fun d hd => by simp [h d hd]
  unfold choice?
  rw [hfilter]
  rfl

theorem defaults_iff {key first value : String} :
    Defaults entries key first value ↔
      ∃ choice, choice? entries key = .ok choice ∧ choice.getD first = value := by
  unfold Defaults
  by_cases hgiven : ∃ d, Data.get? key entries = some d ∧ d.isTruthy
  · obtain ⟨d, hget, htruthy⟩ := hgiven
    rw [choice?_of_given hget htruthy, hget]
    simp only [Option.some.injEq, exists_eq_left', forall_eq', htruthy, true_and,
      Bool.true_eq_false, false_and, or_false]
    unfold textOf
    cases d.display? <;> simp [Except.map]
  · simp only [not_exists, not_and, Bool.not_eq_true] at hgiven
    rw [choice?_of_not_given hgiven]
    constructor
    · rintro (⟨d, hget, htruthy, -⟩ | ⟨-, rfl⟩)
      · rw [hgiven d hget] at htruthy
        cases htruthy
      · exact ⟨none, rfl, rfl⟩
    · rintro ⟨choice, h, rfl⟩
      cases h
      exact .inr ⟨hgiven, rfl⟩

/-- A definition is accepted as a character exactly if it describes that character. -/
theorem ofEntries_eq_ok_iff {c : Character} :
    ofEntries place entries = .ok c ↔ Describes entries c := by
  constructor
  · intro h
    obtain ⟨name, hname, h⟩ := bind_eq_ok.1 h
    dsimp only at h
    split at h
    · next first rest hget =>
      obtain ⟨d, hd, hentries⟩ := Option.bind_eq_some_iff.1 hget
      rw [Data.entries?_eq_some_iff] at hentries
      obtain ⟨outfits, houtfits, h⟩ := bind_eq_ok.1 h
      obtain ⟨outfit?, houtfit, h⟩ := bind_eq_ok.1 h
      split at h
      · cases h
      · next emotions hemotions =>
        obtain ⟨emotion?, hemotion, h⟩ := bind_eq_ok.1 h
        split at h
        · cases h
        · next hhas =>
          obtain ⟨description?, hdescription, h⟩ := bind_eq_ok.1 h
          cases h
          obtain ⟨named, hnamed, hfilled⟩ := readOutfits_eq_ok_iff.1 houtfits
          exact {
            name := requireText_eq_ok_iff.1 hname
            outfits := ⟨_, named, hentries ▸ hd, List.cons_ne_nil _ _, hnamed, hfilled⟩
            outfit := defaults_iff.2 ⟨_, houtfit, rfl⟩
            emotion := ⟨emotions, hemotions, by simpa using hhas,
              defaults_iff.2 ⟨_, hemotion, rfl⟩⟩
            description := defaults_iff.2 ⟨_, hdescription, rfl⟩ }
    · cases h
  · rintro ⟨hname, ⟨outfits, named, hget, hne, hnamed, hfilled⟩, houtfit,
      ⟨emotions, hemotions, hhas, hemotion⟩, hdescription⟩
    obtain ⟨first, rest, rfl⟩ := List.exists_cons_of_ne_nil hne
    obtain ⟨outfit?, houtfit, houtfit'⟩ := defaults_iff.1 houtfit
    obtain ⟨emotion?, hemotion, hemotion'⟩ := defaults_iff.1 hemotion
    obtain ⟨description?, hdescription, hdescription'⟩ := defaults_iff.1 hdescription
    refine bind_eq_ok.2 ⟨c.name, requireText_eq_ok_iff.2 hname, ?_⟩
    dsimp only
    rw [hget]
    refine bind_eq_ok.2 ⟨c.outfits, readOutfits_eq_ok_iff.2 ⟨named, hnamed, hfilled⟩, ?_⟩
    refine bind_eq_ok.2 ⟨outfit?, houtfit, ?_⟩
    rw [houtfit', hemotions]
    refine bind_eq_ok.2 ⟨emotion?, hemotion, ?_⟩
    rw [hemotion', hhas]
    refine bind_eq_ok.2 ⟨description?, hdescription, ?_⟩
    rw [hdescription']
    rfl

/-! ### Sprites and defaults -/

/-- What is found under a text among entries, and in the table of what they name. -/
theorem last?_or_get?_ofNamed {β : Type} {R : Data × Data → String × β → Prop}
    (htext : ∀ e p, R e p → e.1.display = p.1) {es : List (Data × Data)}
    {named : List (String × β)} (h : List.Forall₂ R es named) (name : String) :
    (Data.last? name es = none ∧ (Table.ofNamed named).get? name = none) ∨
      ∃ e p, R e p ∧ Data.last? name es = some e.2 ∧
        (Table.ofNamed named).get? name = some p.2 := by
  rw [Table.get?_ofNamed]
  unfold Data.last?
  -- Both lists are searched in step from their ends, since an entry has the text of its name.
  have hreverse := List.rel_reverse h
  generalize es.reverse = es at hreverse
  generalize named.reverse = named at hreverse
  induction hreverse with
  | nil => exact .inl ⟨rfl, rfl⟩
  | @cons e p es named hhead _ ih =>
    rw [List.find?_cons, List.find?_cons, ← htext e p hhead]
    cases e.1.display == name with
    | true => exact .inr ⟨e, p, hhead, rfl, rfl⟩
    | false => exact ih

theorem display_of_display? {d : Data} {text : String} (h : d.display? = some text) :
    d.display = text := by
  unfold Data.display? at h
  split at h
  · exact Option.some.inj h
  · cases h

theorem NamesSprite.display {e : Data × Data} {p : String × String} (h : NamesSprite e p) :
    e.1.display = p.1 :=
  display_of_display? h.1

theorem NamesOutfit.display {e : Data × Data} {p : String × Table String String}
    (h : NamesOutfit e p) : e.1.display = p.1 :=
  display_of_display? h.1

theorem orDefault_some {text default : String} (h : text ≠ "") :
    orDefault (some text) default = text := by
  unfold orDefault
  exact if_neg (by simpa using h)

/-- The first name of a table is the text of the first entry. -/
theorem firstName_ofNamed {β : Type} {R : Data × Data → String × β → Prop}
    (htext : ∀ e p, R e p → e.1.display = p.1) {e : Data × Data} {es : List (Data × Data)}
    {named : List (String × β)} (h : List.Forall₂ R (e :: es) named) :
    firstName (Table.ofNamed named) = e.1.display := by
  obtain ⟨p, rest, hp, -, rfl⟩ := List.forall₂_cons_left_iff.1 h
  unfold firstName
  rw [Table.head_ofNamed, htext e p hp]
  rfl

namespace Describes

variable {c : Character} {outfits : List (Data × Data)}

/-- The outfit of a name, and the sprites in it, are those of the last entry with that text. -/
theorem outfit_get? (h : Describes entries c)
    (houtfits : Data.get? "outfits" entries = some (.map outfits)) (name : String) :
    (Data.last? name outfits = none ∧ c.outfits.get? name = none) ∨
      ∃ emotions named, Data.last? name outfits = some (.map emotions) ∧ emotions ≠ [] ∧
        List.Forall₂ NamesSprite emotions named ∧
        c.outfits.get? name = some (Table.ofNamed named) := by
  obtain ⟨outfits', named, hget, -, hnamed, hfilled⟩ := h.outfits
  rw [houtfits] at hget
  cases hget
  rw [hfilled]
  rcases last?_or_get?_ofNamed (fun _ _ => NamesOutfit.display) hnamed name with
    hnone | ⟨⟨key, d⟩, p, ⟨-, emotions, sprites, rfl, hne, hsprites, htable⟩, hlast, hget⟩
  · exact .inl hnone
  · exact .inr ⟨emotions, sprites, hlast, hne, hsprites, htable ▸ hget⟩

/-- The sprite of an emotion in an outfit is that of the last entries with their texts. -/
theorem sprite?_eq (h : Describes entries c)
    (houtfits : Data.get? "outfits" entries = some (.map outfits))
    (emotion outfit : Option String) :
    c.sprite? emotion outfit =
      ((Data.last? (orDefault outfit c.outfit) outfits).bind Data.entries?).bind fun emotions =>
        (Data.last? (orDefault emotion c.emotion) emotions).bind Data.trimmed? := by
  unfold sprite?
  rcases h.outfit_get? houtfits (orDefault outfit c.outfit) with
    ⟨hlast, hget⟩ | ⟨emotions, named, hlast, -, hnamed, hget⟩
  · rw [hlast, hget]
    rfl
  · rw [hlast, hget]
    dsimp only [Option.bind_some, Data.entries?]
    rcases last?_or_get?_ofNamed (fun _ _ => NamesSprite.display) hnamed
      (orDefault emotion c.emotion) with ⟨hlast, hget⟩ | ⟨e, p, hp, hlast, hget⟩
    · rw [hlast, hget]
      rfl
    · rw [hlast, hget]
      exact hp.2.symm

/-- An entry that no later one takes the place of is found under the texts of its names. -/
theorem sprite?_of_prevails (h : Describes entries c)
    (houtfits : Data.get? "outfits" entries = some (.map outfits)) {o m d : Data}
    {emotions : List (Data × Data)} (ho : Data.Prevails o (.map emotions) outfits)
    (hm : Data.Prevails m d emotions) (hoText : o.display ≠ "") (hmText : m.display ≠ "") :
    ∃ sprite, d.trimmed? = some sprite ∧
      c.sprite? (some m.display) (some o.display) = some sprite := by
  have heq := h.sprite?_eq houtfits (some m.display) (some o.display)
  rw [orDefault_some hoText, orDefault_some hmText, Data.last?_of_prevails ho] at heq
  dsimp only [Option.bind_some, Data.entries?] at heq
  rw [Data.last?_of_prevails hm] at heq
  have houtfit := h.outfit_get? houtfits o.display
  rw [Data.last?_of_prevails ho] at houtfit
  obtain ⟨⟨⟩, -⟩ | ⟨_, named, ⟨⟩, -, hnamed, -⟩ := houtfit
  have hemotion := last?_or_get?_ofNamed (fun _ _ => NamesSprite.display) hnamed m.display
  rw [Data.last?_of_prevails hm] at hemotion
  obtain ⟨⟨⟩, -⟩ | ⟨e, p, hp, ⟨⟩, -⟩ := hemotion
  exact ⟨p.2, hp.2, heq.trans hp.2⟩

/-- The default outfit is the given one, or else the first. -/
theorem default_outfit (h : Describes entries c)
    (houtfits : Data.get? "outfits" entries = some (.map outfits)) :
    ∃ first rest, outfits = first :: rest ∧ Defaults entries "outfit" first.1.display c.outfit := by
  obtain ⟨outfits', named, hget, hne, hnamed, hfilled⟩ := h.outfits
  rw [houtfits] at hget
  cases hget
  obtain ⟨first, rest, rfl⟩ := List.exists_cons_of_ne_nil hne
  have houtfit := h.outfit
  rw [hfilled, firstName_ofNamed (fun _ _ => NamesOutfit.display) hnamed] at houtfit
  exact ⟨first, rest, rfl, houtfit⟩

/-- The default emotion is the given one, or else the first of the default outfit. -/
theorem default_emotion (h : Describes entries c)
    (houtfits : Data.get? "outfits" entries = some (.map outfits)) :
    ∃ first rest, Data.last? c.outfit outfits = some (.map (first :: rest)) ∧
      Defaults entries "emotion" first.1.display c.emotion := by
  obtain ⟨emotions, hemotions, -, hemotion⟩ := h.emotion
  rcases h.outfit_get? houtfits c.outfit with ⟨-, hget⟩ | ⟨emotions', named, hlast, hne, hnamed, hget⟩
  · rw [hemotions] at hget
    cases hget
  · rw [hemotions] at hget
    cases hget
    obtain ⟨first, rest, rfl⟩ := List.exists_cons_of_ne_nil hne
    rw [firstName_ofNamed (fun _ _ => NamesSprite.display) hnamed] at hemotion
    exact ⟨first, rest, hlast, hemotion⟩

end Describes

/-- Of an accepted definition, every entry is found that no later one takes the place of, and a
    default that counts as given is kept. -/
theorem last_entries_kept {c : Character} {outfits : List (Data × Data)}
    (h : ofEntries place entries = .ok c)
    (houtfits : Data.get? "outfits" entries = some (.map outfits)) :
    (∀ emotion outfit, c.sprite? emotion outfit =
      ((Data.last? (orDefault outfit c.outfit) outfits).bind Data.entries?).bind fun emotions =>
        (Data.last? (orDefault emotion c.emotion) emotions).bind Data.trimmed?) ∧
    (∀ o m d emotions, Data.Prevails o (.map emotions) outfits → Data.Prevails m d emotions →
      o.display ≠ "" → m.display ≠ "" →
      ∃ sprite, d.trimmed? = some sprite ∧
        c.sprite? (some m.display) (some o.display) = some sprite) ∧
    (∃ first rest, outfits = first :: rest ∧
      Defaults entries "outfit" first.1.display c.outfit) ∧
    ∃ first rest, Data.last? c.outfit outfits = some (.map (first :: rest)) ∧
      Defaults entries "emotion" first.1.display c.emotion := by
  have hdescribes := ofEntries_eq_ok_iff.1 h
  refine ⟨hdescribes.sprite?_eq houtfits, ?_, hdescribes.default_outfit houtfits,
    hdescribes.default_emotion houtfits⟩
  intro o m d emotions ho hm hoText hmText
  exact hdescribes.sprite?_of_prevails houtfits ho hm hoText hmText

/-- The definition of a lamp. Its default `off` is read as a truth value, and it does not count as
    given. -/
def lamp : List (Data × Data) :=
  [(.text "name", .text " Lamp "), (.text "outfit", .bool false),
    (.text "outfits", .map [
      (.bool true, .map [(.text "plain", .text "lit.png"), (.text "True", .text "on.png "),
        (.bool true, .text " bright.png")]),
      (.bool false, .map [(.text "plain", .text "dark.png")])])]

theorem last_entries_kept_lamp :
    ∃ c, ofEntries "lamp.yaml" lamp = .ok c ∧ c.outfit = "True" ∧ c.emotion = "plain" ∧
      c.sprite? (some "True") (some "True") = some "bright.png" ∧
      c.sprite? (some "plain") (some "False") = some "dark.png" ∧
      c.sprite? none none = some "lit.png" := by
  obtain ⟨c, hc⟩ : ∃ c, ofEntries "lamp.yaml" lamp = .ok c := ⟨_, rfl⟩
  obtain ⟨hsprite, hkept, ⟨_, _, houtfits, houtfit⟩, _, _, hemotions, hemotion⟩ :=
    last_entries_kept hc rfl
  cases houtfits
  have hgiven {key value : String} (hkey : ∀ d, Data.get? key lamp = some d → d.isTruthy = false)
      {first : String} (h : Defaults lamp key first value) : value = first := by
    rcases h with ⟨d, hget, htruthy, -⟩ | ⟨-, rfl⟩
    · rw [hkey d hget] at htruthy
      cases htruthy
    · rfl
  have hoff : c.outfit = "True" := hgiven (by rintro _ ⟨⟩; rfl) houtfit
  rw [hoff] at hemotions
  cases hemotions
  have hplain : c.emotion = "plain" := hgiven (by rintro _ ⟨⟩) hemotion
  refine ⟨c, hc, hoff, hplain, ?_, ?_, ?_⟩
  · obtain ⟨sprite, hread, hfound⟩ :=
      hkept (.bool true) (.bool true) (.text " bright.png") _
        ⟨[], _, rfl, by simp [Data.display, Data.nested]⟩ ⟨[_, _], [], rfl, by simp⟩
        (by decide) (by decide)
    cases hread
    exact hfound
  · obtain ⟨sprite, hread, hfound⟩ :=
      hkept (.bool false) (.text "plain") (.text "dark.png") _ ⟨[_], [], rfl, by simp⟩
        ⟨[], [], rfl, by simp⟩ (by decide) (by decide)
    cases hread
    exact hfound
  · rw [hsprite, hoff, hplain]
    rfl

/-! ### Whatever is accepted -/

/-- A character that can be drawn as it is: its names and sprites are texts, every outfit has a
    sprite, and the defaults have one. -/
structure Complete (c : Character) : Prop where
  name : IsTrimmed c.name
  outfits : ∀ p ∈ c.outfits, p.2 ≠ []
  sprites : ∀ p ∈ c.outfits, ∀ q ∈ p.2, IsTrimmed q.2
  outfit : c.outfits.has c.outfit
  emotion : ∃ emotions, c.outfits.get? c.outfit = some emotions ∧ emotions.has c.emotion
  sprite : ∃ sprite, c.sprite? none none = some sprite ∧ IsTrimmed sprite

theorem exists_of_mem_left {α β : Type} {R : α → β → Prop} {xs : List α} {ys : List β}
    (h : List.Forall₂ R xs ys) {x : α} (hx : x ∈ xs) : ∃ y, R x y := by
  induction h with
  | nil => cases hx
  | @cons x' y xs ys hhead _ ih =>
    rcases List.mem_cons.1 hx with rfl | hx
    · exact ⟨y, hhead⟩
    · exact ih hx

theorem exists_of_mem_ofNamed {β : Type} {R : Data × Data → String × β → Prop}
    {es : List (Data × Data)} {named : List (String × β)} (h : List.Forall₂ R es named)
    {p : String × β} (hp : p ∈ Table.ofNamed named) : ∃ e, R e p :=
  exists_of_mem_left (List.Forall₂.flip (R := fun p e => R e p) h) (Table.mem_of_mem_ofNamed hp)

theorem isWritable_of_display? {d : Data} {text : String} (h : d.display? = some text) :
    d.isWritable := by
  unfold Data.display? at h
  split at h
  · assumption
  · cases h

/-- What does not count as given has a text. -/
theorem isWritable_of_not_truthy {d : Data} (h : d.isTruthy = false) : d.isWritable := by
  cases d with
  | int n =>
    obtain rfl : n = 0 := by simpa [Data.isTruthy] using h
    have hpos (k : Nat) : (0 : Int).natAbs < Nat.pow 10 k := Nat.pow_pos (Nat.succ_pos 9)
    unfold Data.isWritable
    exact decide_eq_true (hpos Number.digitLimit)
  | list items =>
    obtain rfl : items = [] := by simpa [Data.isTruthy] using h
    rfl
  | map es =>
    obtain rfl : es = [] := by simpa [Data.isTruthy] using h
    rfl
  | _ => rfl

theorem Defaults.isWritable {key first value : String} (h : Defaults entries key first value)
    {d : Data} (hd : Data.get? key entries = some d) : d.isWritable := by
  rcases h with ⟨d', hget, -, hdisplay⟩ | ⟨hgiven, -⟩
  · rw [hd] at hget
    cases hget
    exact isWritable_of_display? hdisplay
  · exact isWritable_of_not_truthy (hgiven d hd)

namespace Describes

variable {c : Character}

theorem isWritable (h : Describes entries c) {d : Data} (hd : Names entries d) : d.isWritable := by
  obtain ⟨outfits, named, houtfits, -, hnamed, -⟩ := h.outfits
  cases hd with
  | @choice key d hkey hget =>
    obtain ⟨emotions, -, -, hemotion⟩ := h.emotion
    simp only [List.mem_cons, List.not_mem_nil, or_false] at hkey
    rcases hkey with rfl | rfl | rfl
    · exact h.outfit.isWritable hget
    · exact hemotion.isWritable hget
    · exact h.description.isWritable hget
  | outfit hget hmem =>
    rw [houtfits] at hget
    cases hget
    obtain ⟨p, hdisplay, -⟩ := exists_of_mem_left hnamed hmem
    exact isWritable_of_display? hdisplay
  | emotion hget houtfit hmem =>
    rw [houtfits] at hget
    cases hget
    obtain ⟨p, -, emotions, sprites, hmap, -, hsprites, -⟩ := exists_of_mem_left hnamed houtfit
    cases hmap
    obtain ⟨q, hdisplay, -⟩ := exists_of_mem_left hsprites hmem
    exact isWritable_of_display? hdisplay

theorem of_mem_outfits (h : Describes entries c) {p : String × Table String String}
    (hp : p ∈ c.outfits) : p.2 ≠ [] ∧ ∀ q ∈ p.2, IsTrimmed q.2 := by
  obtain ⟨outfits, named, -, -, hnamed, hfilled⟩ := h.outfits
  rw [hfilled] at hp
  obtain ⟨e, -, emotions, sprites, -, hne, hsprites, htable⟩ := exists_of_mem_ofNamed hnamed hp
  rw [htable]
  constructor
  · obtain ⟨first, rest, rfl⟩ := List.exists_cons_of_ne_nil hne
    obtain ⟨q, sprites, -, -, rfl⟩ := List.forall₂_cons_left_iff.1 hsprites
    intro hnil
    have hhead := Table.head_ofNamed q sprites
    rw [hnil] at hhead
    cases hhead
  · intro q hq
    obtain ⟨e, -, hsprite⟩ := exists_of_mem_ofNamed hsprites hq
    exact Data.isTrimmed_of_trimmed? hsprite

theorem complete (h : Describes entries c) : Complete c := by
  obtain ⟨d, -, hname⟩ := h.name
  obtain ⟨emotions, hemotions, hhas, -⟩ := h.emotion
  obtain ⟨sprite, hsprite⟩ := Table.has_iff_exists_get?.1 hhas
  have hmem := Table.mem_of_get? hemotions
  exact {
    name := Data.isTrimmed_of_trimmed? hname
    outfits := fun p hp => (h.of_mem_outfits hp).1
    sprites := fun p hp => (h.of_mem_outfits hp).2
    outfit := Table.has_iff_exists_get?.2 ⟨emotions, hemotions⟩
    emotion := ⟨emotions, hemotions, hhas⟩
    sprite := by
      refine ⟨sprite, ?_, (h.of_mem_outfits hmem).2 _ (Table.mem_of_get? hsprite)⟩
      unfold sprite?
      rw [orDefault, orDefault, hemotions]
      exact hsprite }

end Describes

/-- A definition is either accepted as a complete character, or refused: with a message about the
    first breach of the format, unless it names something that has no text. -/
theorem complete_or_refused (place : String) (entries : List (Data × Data)) :
    (∃ c, ofEntries place entries = .ok c ∧ Describes entries c ∧ Complete c ∧
      ∀ d, Names entries d → d.isWritable) ∨
    ∃ e, ofEntries place entries = .error e ∧ (∀ c, ¬ Describes entries c) ∧
      (e.message?.isSome ∨ e = .unrealValue ∧ ∃ d, Names entries d ∧ d.isWritable = false) := by
  cases h : ofEntries place entries with
  | ok c =>
    have hdescribes := ofEntries_eq_ok_iff.1 h
    exact .inl ⟨c, rfl, hdescribes, hdescribes.complete, fun d => hdescribes.isWritable⟩
  | error e =>
    refine .inr ⟨e, rfl, fun c hdescribes => ?_, ofEntries_failsWith e h⟩
    rw [ofEntries_eq_ok_iff.2 hdescribes] at h
    cases h

end Character

end VisualNovel

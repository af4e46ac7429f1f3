import VisualNovel.Proofs.Script.Phrase
import Mathlib.Data.List.Forall2

/-!
The grammar of stage directions, over tokens. Each phrase is spelled with certain tokens; the
options of a phrase stand behind it in any order, each at most once.
-/

namespace VisualNovel

open Script (TokenValue)

/-- A name is spelled as a word, or as a quoted text without variables. -/
inductive IsLabel : TokenValue → String → Prop
  | word (w : String) : IsLabel (.word w) w
  | text (e : Expression) (h : e.variableNames = []) : IsLabel (.text e) e.literalText

/-- The words of a place. -/
def Position.spelling : Position → List TokenValue
  | .center => [.word "center"]
  | .farLeft => [.word "far", .word "left"]
  | .farRight => [.word "far", .word "right"]
  | .left => [.word "left"]
  | .right => [.word "right"]
  | .invisibleLeft => [.word "invisible", .word "left"]
  | .invisibleRight => [.word "invisible", .word "right"]

/-! ### Options -/

/-- A kind of options: the word that each begins with, the parameter it sets, and its tokens. -/
class PhraseOption (α : Type) where
  lead : α → String
  set : α → Params → Params
  Spelled : α → List TokenValue → Prop

namespace PhraseOption

/-- Parameters with what the options say, one after the other. -/
def setAll {α : Type} [PhraseOption α] (os : List α) (params : Params) : Params :=
  os.foldl (fun p o => set o p) params

/-- These options, in any order. -/
def InAnyOrder {α : Type} [PhraseOption α] (os : List α) (vs : List TokenValue) : Prop :=
  ∃ pieces order : List (List TokenValue),
    List.Forall₂ Spelled os pieces ∧ order.Perm pieces ∧ vs = order.flatten

/-- The same options in another order. -/
def Rearranged (α : Type) [PhraseOption α] (vs vs' : List TokenValue) : Prop :=
  ∃ order order' : List (List TokenValue), (∀ piece ∈ order, ∃ o : α, Spelled o piece) ∧
    order.Perm order' ∧ vs = order.flatten ∧ vs' = order'.flatten

end PhraseOption

/-- What can be said of an actor that comes on stage. -/
inductive EntranceOption where
  | stands (place : Position)
  | faces (facing : Facing)
  | feels (emotion : String)

/-- What can be said of an animation that appears. -/
inductive ShowingOption where
  | lies (x y : Float)
  | scaled (x : Float)
  | layered (n : Int)

/-- `at PLACE`, `looking left|right`, `as EMOTION` -/
inductive EntranceOption.Spelled : EntranceOption → List TokenValue → Prop
  | stands (place : Position) : Spelled (.stands place) (.word "at" :: place.spelling)
  | faces (facing : Facing) :
    Spelled (.faces facing) [.word "looking", .word (Vocabulary.word facing)]
  | feels (emotion : String) : Spelled (.feels emotion) [.word "as", .word emotion]

/-- `at X Y`, `scale FACTOR`, `layer WHOLE` -/
inductive ShowingOption.Spelled : ShowingOption → List TokenValue → Prop
  | lies (x y : Float) : Spelled (.lies x y) [.word "at", .number x, .number y]
  | scaled (x : Float) (h : 0 ≤ x) : Spelled (.scaled x) [.word "scale", .number x]
  | layered (x : Float) (n : Int) (hwhole : Number.isWhole x) (hvalue : Number.truncate x = .ok n) :
    Spelled (.layered n) [.word "layer", .number x]

instance : PhraseOption EntranceOption where
  lead
    | .stands _ => "at"
    | .faces _ => "looking"
    | .feels _ => "as"
  set
    | .stands place, params => { params with position := some (.place place) }
    | .faces facing, params => { params with facing := some facing }
    | .feels emotion, params => { params with emotion := some (some emotion) }
  Spelled := EntranceOption.Spelled

instance : PhraseOption ShowingOption where
  lead
    | .lies _ _ => "at"
    | .scaled _ => "scale"
    | .layered _ => "layer"
  set
    | .lies x y, params => { params with position := some (.coords [x, y]) }
    | .scaled x, params => { params with scale := some x }
    | .layered n, params => { params with layer := some n }
  Spelled := ShowingOption.Spelled

/-- The options that say an entrance. -/
def Entrance.options (e : Entrance) : List EntranceOption :=
  (e.place.map .stands).toList ++ (e.facing.map .faces).toList ++ (e.emotion.map .feels).toList

/-- The options that say a showing. -/
def Showing.options (s : Showing) : List ShowingOption :=
  (s.position.map fun (x, y) => .lies x y).toList ++ (s.scale.map .scaled).toList ++
    (s.layer.map .layered).toList

/-! ### Phrases -/

open PhraseOption

/-- The tokens that a phrase is spelled with. -/
inductive Phrase.Spelled : Phrase → List TokenValue → Prop
  | sceneBegins {v : TokenValue} {name : String} (h : IsLabel v name) :
    Spelled (.sceneBegins name) [.word "Scene", v, .word "begins"]
  | backgroundChanges {v : TokenValue} {id : String} (h : IsLabel v id) :
    Spelled (.backgroundChanges id) [.word "Background", .word "changes", .word "to", v]
  | panelChanges (panel : Panel) {v : TokenValue} {id : String} (h : IsLabel v id)
      (scaling : Option Scaling) :
    Spelled (.panelChanges panel id scaling)
      (.word "GUI" :: .word (Vocabulary.word panel) :: .word "changes" :: .word "to" :: v ::
        (scaling.map fun s => TokenValue.word (Vocabulary.word s)).toList)
  | actorAppears {name : String} {e : Entrance} {vs : List TokenValue} (hname : name ∉ heads)
      (h : InAnyOrder e.options vs) :
    Spelled (.actorAppears name e) (.word name :: .word "appears" :: vs)
  | actorDisappears {name : String} (hname : name ∉ heads) :
    Spelled (.actorDisappears name) [.word name, .word "disappears"]
  | actorFadesIn {name : String} {e : Entrance} {vs : List TokenValue} (hname : name ∉ heads)
      (h : InAnyOrder e.options vs) :
    Spelled (.actorFadesIn name e) (.word name :: .word "fades" :: .word "in" :: vs)
  | actorFadesOut {name : String} (hname : name ∉ heads) :
    Spelled (.actorFadesOut name) [.word name, .word "fades", .word "out"]
  | actorMoves {name : String} (hname : name ∉ heads) (place : Position) :
    Spelled (.actorMoves name place) (.word name :: .word "moves" :: .word "to" :: place.spelling)
  | actorLooks {name : String} (hname : name ∉ heads) (facing : Facing) :
    Spelled (.actorLooks name facing) [.word name, .word "looks", .word (Vocabulary.word facing)]
  | animationAppears {name : String} {s : Showing} {vs : List TokenValue}
      (h : InAnyOrder s.options vs) :
    Spelled (.animationAppears name s)
      (.word "Animation" :: .word name :: .word "appears" :: vs)
  | animationFades (name : String) (fade : Fade) :
    Spelled (.animationFades name fade)
      [.word "Animation", .word name, .word "fades", .word (Vocabulary.word fade)]
  | animationMoves (name : String) (x y : Float) :
    Spelled (.animationMoves name x y)
      [.word "Animation", .word name, .word "moves", .word "to", .number x, .number y]
  | animationLooks (name : String) (facing : Facing) :
    Spelled (.animationLooks name facing)
      [.word "Animation", .word name, .word "looks", .word (Vocabulary.word facing)]

/-- The same phrase with its options in another order. -/
inductive Phrase.Reordered : List TokenValue → List TokenValue → Prop
  | actorAppears {name : String} {vs vs' : List TokenValue} (hname : name ∉ heads)
      (h : Rearranged EntranceOption vs vs') :
    Reordered (.word name :: .word "appears" :: vs) (.word name :: .word "appears" :: vs')
  | actorFadesIn {name : String} {vs vs' : List TokenValue} (hname : name ∉ heads)
      (h : Rearranged EntranceOption vs vs') :
    Reordered (.word name :: .word "fades" :: .word "in" :: vs)
      (.word name :: .word "fades" :: .word "in" :: vs')
  | animationAppears {name : String} {vs vs' : List TokenValue}
      (h : Rearranged ShowingOption vs vs') :
    Reordered (.word "Animation" :: .word name :: .word "appears" :: vs)
      (.word "Animation" :: .word name :: .word "appears" :: vs')

/-! ### Options in another order -/

namespace PhraseOption

variable {α : Type} [PhraseOption α]

/-- The tokens of an option tell where it ends. -/
class Delimited (α : Type) [PhraseOption α] : Prop where
  ne_nil : ∀ {o : α} {piece}, Spelled o piece → piece ≠ []
  prefix_unique : ∀ {o o' : α} {piece piece' vs vs'}, Spelled o piece → Spelled o' piece' →
    piece ++ vs = piece' ++ vs' → piece = piece'

/-- Options can be told apart from their tokens alone. -/
theorem flatten_injective [Delimited α] {pieces pieces' : List (List TokenValue)}
    (h : ∀ piece ∈ pieces, ∃ o : α, Spelled o piece)
    (h' : ∀ piece ∈ pieces', ∃ o : α, Spelled o piece)
    (heq : pieces.flatten = pieces'.flatten) : pieces = pieces' := by
  induction pieces generalizing pieces' with
  | nil =>
    cases pieces' with
    | nil => rfl
    | cons piece' more' =>
      obtain ⟨o', ho'⟩ := h' piece' List.mem_cons_self
      have hnil : piece' = [] := (List.append_eq_nil_iff.1 heq.symm).1
      exact absurd hnil (Delimited.ne_nil ho')
  | cons piece more ih =>
    obtain ⟨o, ho⟩ := h piece List.mem_cons_self
    cases pieces' with
    | nil =>
      have hnil : piece = [] := (List.append_eq_nil_iff.1 heq).1
      exact absurd hnil (Delimited.ne_nil ho)
    | cons piece' more' =>
      obtain ⟨o', ho'⟩ := h' piece' List.mem_cons_self
      obtain rfl := Delimited.prefix_unique ho ho' heq
      obtain rfl := ih (fun p hp => h p (List.mem_cons_of_mem _ hp))
        (fun p hp => h' p (List.mem_cons_of_mem _ hp)) (List.append_cancel_left heq)
      rfl

theorem exists_of_forall₂ {os : List α} {pieces : List (List TokenValue)}
    (h : List.Forall₂ Spelled os pieces) : ∀ piece ∈ pieces, ∃ o : α, Spelled o piece := by
  induction h with
  | nil => simp
  | cons ho hrest ih => exact List.forall_mem_cons.2 ⟨⟨_, ho⟩, ih⟩

/-- Each of the options is spelled somewhere among the tokens. -/
theorem InAnyOrder.exists_spelled {os : List α} {vs : List TokenValue} (h : InAnyOrder os vs) :
    ∀ o ∈ os, ∃ piece, Spelled o piece ∧ piece ⊆ vs := by
  obtain ⟨pieces, order, hspelled, hperm, rfl⟩ := h
  have hpieces : ∀ o ∈ os, ∃ piece ∈ pieces, Spelled o piece := by
    clear hperm
    induction hspelled with
    | nil => simp
    | cons ho hrest ih =>
      refine List.forall_mem_cons.2 ⟨⟨_, List.mem_cons_self, ho⟩, fun o ho => ?_⟩
      obtain ⟨piece, hmem, hpiece⟩ := ih o ho
      exact ⟨piece, List.mem_cons_of_mem _ hmem, hpiece⟩
  intro o ho
  obtain ⟨piece, hmem, hpiece⟩ := hpieces o ho
  exact ⟨piece, hpiece, fun v hv => List.mem_flatten.2 ⟨piece, hperm.mem_iff.2 hmem, hv⟩⟩

theorem InAnyOrder.rearranged [Delimited α] {os : List α} {vs vs' : List TokenValue}
    (h : InAnyOrder os vs) (hvs : Rearranged α vs vs') : InAnyOrder os vs' := by
  obtain ⟨pieces, order, hspelled, hperm, rfl⟩ := h
  obtain ⟨given, given', hgiven, hperm', heq, rfl⟩ := hvs
  have horder : ∀ piece ∈ order, ∃ o : α, Spelled o piece := fun piece hpiece =>
    exists_of_forall₂ hspelled piece (hperm.mem_iff.1 hpiece)
  obtain rfl := flatten_injective horder hgiven heq
  exact ⟨pieces, given', hspelled, hperm'.symm.trans hperm, rfl⟩

end PhraseOption

theorem Position.spelling_prefix_unique {p q : Position} {vs vs' : List TokenValue}
    (h : p.spelling ++ vs = q.spelling ++ vs') : p = q := by
  cases p <;> cases q <;> simp_all [Position.spelling]

instance : Delimited EntranceOption where
  ne_nil h := by cases h <;> exact List.cons_ne_nil _ _
  prefix_unique h h' heq := by
    cases h <;> cases h' <;> simp_all
    exact congrArg _ (Position.spelling_prefix_unique heq)

instance : Delimited ShowingOption where
  ne_nil h := by cases h <;> exact List.cons_ne_nil _ _
  prefix_unique h h' heq := by
    cases h <;> cases h' <;> simp_all

/-- Whatever order its options are in, a phrase stays the same. -/
theorem Phrase.Spelled.reordered {p : Phrase} {vs vs' : List TokenValue} (h : p.Spelled vs)
    (hvs : Phrase.Reordered vs vs') : p.Spelled vs' := by
  -- the first tokens leave one phrase only
  cases hvs with
  | @actorAppears name rest rest' hname hrest =>
    generalize heq : TokenValue.word name :: _ = whole at h
    cases h with
    | actorAppears hname' h =>
      cases heq
      exact .actorAppears hname (h.rearranged hrest)
    | _ => simp_all [heads]
  | @actorFadesIn name rest rest' hname hrest =>
    generalize heq : TokenValue.word name :: _ = whole at h
    cases h with
    | actorFadesIn hname' h =>
      cases heq
      exact .actorFadesIn hname (h.rearranged hrest)
    | _ => simp_all [heads]
  | @animationAppears name rest rest' hrest =>
    generalize heq : TokenValue.word "Animation" :: _ = whole at h
    cases h with
    | animationAppears h =>
      cases heq
      exact .animationAppears (h.rearranged hrest)
    | _ => simp_all [heads]

theorem PhraseOption.Rearranged.symm {α : Type} [PhraseOption α] {vs vs' : List TokenValue}
    (h : Rearranged α vs vs') : Rearranged α vs' vs := by
  obtain ⟨order, order', hspelled, hperm, heq, heq'⟩ := h
  exact ⟨order', order, fun piece hpiece => hspelled piece (hperm.mem_iff.2 hpiece), hperm.symm,
    heq', heq⟩

theorem PhraseOption.Rearranged.perm {α : Type} [PhraseOption α] {vs vs' : List TokenValue}
    (h : Rearranged α vs vs') : vs.Perm vs' := by
  obtain ⟨order, order', -, hperm, rfl, rfl⟩ := h
  exact hperm.flatten

theorem Phrase.Reordered.symm {vs vs' : List TokenValue} (h : Phrase.Reordered vs vs') :
    Phrase.Reordered vs' vs := by
  cases h with
  | actorAppears hname h => exact .actorAppears hname h.symm
  | actorFadesIn hname h => exact .actorFadesIn hname h.symm
  | animationAppears h => exact .animationAppears h.symm

theorem Phrase.Reordered.perm {vs vs' : List TokenValue} (h : Phrase.Reordered vs vs') :
    vs.Perm vs' := by
  cases h with
  | actorAppears hname h => exact (h.perm.cons _).cons _
  | actorFadesIn hname h => exact ((h.perm.cons _).cons _).cons _
  | animationAppears h => exact ((h.perm.cons _).cons _).cons _

end VisualNovel

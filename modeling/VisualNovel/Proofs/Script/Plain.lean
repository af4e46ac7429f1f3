import VisualNovel.Proofs.Script.Rereading

/-!
Plain directions: those whose numbers are all written without an exponent. Their phrases are rows
of readable chunks, and what reads back is the same direction.
-/

namespace VisualNovel

/-- The numbers of a direction, which are its coordinates and its scale. -/
def Params.numbers (p : Params) : List Float :=
  (match p.position with
    | some (.coords values) => values
    | _ => []) ++ p.scale.toList

def Directive.numbers : Directive → List Float
  | .stage d => d.params.numbers
  | _ => []

/-- The coordinates and scales of a script. -/
def Script.numbers (s : Script) : List Float :=
  s.scenes.flatMap fun scene => scene.directives.flatMap fun d => d.directive.numbers

/-- Every number of the direction is written without an exponent. -/
def Directive.Plain (d : Directive) : Prop := ∀ x ∈ d.numbers, Number.IsPlain x

/-- Every coordinate and every scale of the script is written without an exponent. -/
def Script.Plain (s : Script) : Prop := ∀ x ∈ s.numbers, Number.IsPlain x

theorem Script.plain_iff {s : Script} :
    s.Plain ↔ ∀ scene ∈ s.scenes, ∀ d ∈ scene.directives, d.directive.Plain := by
  simp only [Script.Plain, Script.numbers, List.mem_flatMap, Directive.Plain]
  constructor
  · exact fun h scene hscene d hd x hx => h x ⟨scene, hscene, d, hd, hx⟩
  · rintro h x ⟨scene, hscene, d, hd, hx⟩
    exact h scene hscene d hd x hx

/-! ### Readable chunks -/

/-- What the grammar makes of a chunk. It says nothing about how a number is written. -/
def Chunk.Writable : Chunk → Prop
  | word w => IsName w
  | text _ | number _ => True
  | layer n => IsDouble n

theorem Chunk.readable_of_writable {c : Chunk} (h : c.Writable)
    (hplain : ∀ x, c = .number x → Number.IsPlain x) : c.Readable := by
  cases c with
  | word w => exact h
  | text s => trivial
  | number x => exact hplain x rfl
  | layer n => exact h

/-- The words of the grammar. -/
def Phrase.words : List String :=
  heads ++ ["begins", "changes", "to", "textbox", "namebox", "sliced", "auto", "appears",
    "disappears", "fades", "in", "out", "moves", "looks", "at", "looking", "as", "scale", "layer",
    "center", "left", "right", "far", "invisible"]

theorem Chunk.writable_of_mem_words {w : String} (h : w ∈ Phrase.words) : (word w).Writable := by
  have hall : ∀ w ∈ Phrase.words, Text.isName w.toList := by decide
  exact hall w h

theorem Chunk.writable_text (s : String) : (text s).Writable := trivial

theorem Chunk.writable_number (x : Float) : (number x).Writable := trivial

theorem Position.writable (p : Position) : ∀ c ∈ p.chunks, c.Writable := by
  cases p <;> simp +decide [chunks, Chunk.writable_of_mem_words]

theorem Facing.writable (f : Facing) : (Chunk.word (Vocabulary.word f)).Writable := by
  cases f <;> exact Chunk.writable_of_mem_words (by decide)

theorem Entrance.writable {e : Entrance} (he : e.Valid) : ∀ c ∈ e.chunks, c.Writable := by
  obtain ⟨place, facing, emotion⟩ := e
  simp only [chunks, List.forall_mem_append]
  refine ⟨⟨?_, ?_⟩, ?_⟩
  · cases place with
    | none => simp
    | some p => exact List.forall_mem_cons.2 ⟨Chunk.writable_of_mem_words (by decide), p.writable⟩
  · cases facing with
    | none => simp
    | some f => simp +decide [Chunk.writable_of_mem_words, f.writable]
  · cases emotion with
    | none => simp
    | some emotion =>
      have hemotion : (Chunk.word emotion).Writable := he emotion rfl
      simp +decide [Chunk.writable_of_mem_words, hemotion]

theorem Showing.writable {s : Showing} (hs : s.Valid) : ∀ c ∈ s.chunks, c.Writable := by
  obtain ⟨position, scale, layer⟩ := s
  simp only [chunks, List.forall_mem_append]
  refine ⟨⟨?_, ?_⟩, ?_⟩
  · cases position <;> simp +decide [Chunk.writable_of_mem_words, Chunk.writable_number]
  · cases scale <;> simp +decide [Chunk.writable_of_mem_words, Chunk.writable_number]
  · cases layer with
    | none => simp
    | some n =>
      have hn : (Chunk.layer n).Writable := hs.layer_double n rfl
      simp +decide [Chunk.writable_of_mem_words, hn]

theorem Phrase.writable {p : Phrase} (hp : p.Valid) : ∀ c ∈ p.chunks, c.Writable := by
  cases p with
  | sceneBegins name | backgroundChanges id =>
    simp +decide [chunks, Chunk.writable_of_mem_words, Chunk.writable_text]
  | panelChanges panel id scaling =>
    cases panel <;> cases scaling with
    | none => simp +decide [chunks, Chunk.writable_of_mem_words, Chunk.writable_text]
    | some s => cases s <;> simp +decide [chunks, Chunk.writable_of_mem_words, Chunk.writable_text]
  | actorAppears name e | actorFadesIn name e =>
    have hname : (Chunk.word name).Writable := hp.1.1
    simpa +decide [chunks, Chunk.writable_of_mem_words, hname] using e.writable hp.2
  | actorDisappears name | actorFadesOut name =>
    have hname : (Chunk.word name).Writable := hp.1
    simp +decide [chunks, Chunk.writable_of_mem_words, hname]
  | actorMoves name place =>
    have hname : (Chunk.word name).Writable := hp.1
    simpa +decide [chunks, Chunk.writable_of_mem_words, hname] using place.writable
  | actorLooks name facing =>
    have hname : (Chunk.word name).Writable := hp.1
    simp +decide [chunks, Chunk.writable_of_mem_words, hname, facing.writable]
  | animationAppears name s =>
    have hname : (Chunk.word name).Writable := hp.1
    simpa +decide [chunks, Chunk.writable_of_mem_words, hname] using s.writable hp.2
  | animationFades name fade =>
    have hname : (Chunk.word name).Writable := hp
    cases fade <;> simp +decide [chunks, Chunk.writable_of_mem_words, hname]
  | animationMoves name x y =>
    have hname : (Chunk.word name).Writable := hp
    simp +decide [chunks, Chunk.writable_of_mem_words, hname, Chunk.writable_number]
  | animationLooks name facing =>
    have hname : (Chunk.word name).Writable := hp
    simp +decide [chunks, Chunk.writable_of_mem_words, hname, facing.writable]

/-- The numbers of a direction are the numbers among its chunks. -/
theorem Phrase.number_mem_chunks {p : Phrase} {x : Float} :
    .number x ∈ p.chunks ↔ x ∈ p.direction.params.numbers := by
  cases p with
  | sceneBegins name | backgroundChanges id | actorDisappears name | actorFadesOut name
  | actorLooks name facing | animationFades name fade | animationMoves name x y
  | animationLooks name facing => simp [chunks, direction, Params.numbers]
  | panelChanges panel id scaling => cases scaling <;> simp [chunks, direction, Params.numbers]
  | actorAppears name e | actorFadesIn name e =>
    obtain ⟨place, facing, emotion⟩ := e
    cases place with
    | none => cases facing <;> cases emotion <;>
      simp [chunks, Entrance.chunks, Entrance.params, direction, Params.numbers]
    | some p => cases p <;> cases facing <;> cases emotion <;>
      simp [chunks, Entrance.chunks, Position.chunks, Entrance.params, direction, Params.numbers]
  | actorMoves name place =>
    cases place <;> simp [chunks, Position.chunks, direction, Params.numbers]
  | animationAppears name s =>
    obtain ⟨position, scale, layer⟩ := s
    cases position <;> cases scale <;> cases layer <;>
      simp [chunks, Showing.chunks, Showing.params, direction, Params.numbers]

/-- A phrase without an exponent is a row of readable chunks. -/
theorem Phrase.readable {p : Phrase} (hp : p.Valid)
    (hplain : ∀ x ∈ p.direction.params.numbers, Number.IsPlain x) : ∀ c ∈ p.chunks, c.Readable := by
  refine fun c hc => Chunk.readable_of_writable (p.writable hp c hc) ?_
  rintro x rfl
  exact hplain x (number_mem_chunks.1 hc)

/-! ### Equality -/

/-- Parameters are equal if their numbers are, and everything else is the same. -/
theorem Params.beq_of {p q : Params} (hposition : p.position == q.position)
    (hscale : p.scale == q.scale) (hrest : { q with position := p.position, scale := p.scale } = p)
    (hextra : q.extra = []) : p == q := by
  show instBEqParams.beq _ _
  rw [← hrest]
  simp [instBEqParams.beq, hposition, hscale, hextra]

theorem StageDirection.beq_of {t : Target} {a : Action} {p q : Params} (h : p == q) :
    (⟨t, a, p⟩ : StageDirection) == ⟨t, a, q⟩ := by
  show instBEqStageDirection.beq _ _
  simp [instBEqStageDirection.beq, h]

theorem Placement.beq_place (p : Position) : Placement.place p == .place p := by
  show instBEqPlacement.beq _ _
  simp [instBEqPlacement.beq]

theorem Placement.beq_coords {x y x' y' : Float} (hx : x == x') (hy : y == y') :
    Placement.coords [x, y] == .coords [x', y'] := by
  show instBEqPlacement.beq _ _
  simp [instBEqPlacement.beq, hx, hy]

/-- Parameters equal themselves, unless one of their numbers does not. -/
theorem Params.beq_self {p : Params} (hnumbers : ∀ x ∈ p.numbers, x == x) (hextra : p.extra = []) :
    p == p := by
  obtain ⟨hposition, hscale⟩ := List.forall_mem_append.1 hnumbers
  refine Params.beq_of ?_ ?_ rfl hextra
  · cases hp : p.position with
    | none => rfl
    | some placement =>
      rw [hp] at hposition
      show instBEqPlacement.beq placement placement
      cases placement with
      | place position => simp [instBEqPlacement.beq]
      | coords values =>
        have hall : values == values := by
          clear hp
          induction values with
          | nil => rfl
          | cons x values ih =>
            obtain ⟨hx, hvalues⟩ := List.forall_mem_cons.1 hposition
            simp [List.cons_beq_cons, hx, ih hvalues]
        exact hall
  · cases hs : p.scale with
    | none => rfl
    | some x =>
      rw [hs] at hscale
      exact hscale x (by simp)

theorem Entrance.beq_params (e : Entrance) (direction : Option Fade) :
    e.params direction == e.params direction := by
  refine Params.beq_of ?_ rfl rfl rfl
  obtain ⟨place, facing, emotion⟩ := e
  cases place with
  | none => rfl
  | some p => exact Placement.beq_place p

theorem Showing.beq_reread {s : Showing} (hplain : ∀ x ∈ s.params.numbers, Number.IsPlain x) :
    s.params == s.reread.params := by
  obtain ⟨position, scale, layer⟩ := s
  simp only [params, Params.numbers, List.forall_mem_append] at hplain
  refine Params.beq_of ?_ ?_ rfl rfl
  · cases position with
    | none => rfl
    | some xy =>
      have hnumbers : ∀ x ∈ [xy.1, xy.2], Number.IsPlain x := hplain.1
      simp only [List.forall_mem_cons] at hnumbers
      exact Placement.beq_coords (Number.beq_reread hnumbers.1) (Number.beq_reread hnumbers.2.1)
  · cases scale with
    | none => rfl
    | some x => exact Number.beq_reread (hplain.2 x (by simp))

/-- A plain phrase still says the same once its numbers are read back. -/
theorem Phrase.beq_reread {p : Phrase}
    (hplain : ∀ x ∈ p.direction.params.numbers, Number.IsPlain x) :
    p.direction == p.reread.direction := by
  cases p with
  | sceneBegins | backgroundChanges | panelChanges | actorDisappears | actorFadesOut | actorLooks
  | animationFades | animationLooks =>
    exact StageDirection.beq_of (Params.beq_of rfl rfl rfl rfl)
  | actorAppears name e => exact StageDirection.beq_of (e.beq_params none)
  | actorFadesIn name e => exact StageDirection.beq_of (e.beq_params (some .fadeIn))
  | actorMoves name place =>
    exact StageDirection.beq_of (Params.beq_of (Placement.beq_place place) rfl rfl rfl)
  | animationAppears name s => exact StageDirection.beq_of (Showing.beq_reread hplain)
  | animationMoves name x y =>
    have hx := Number.beq_reread (hplain x List.mem_cons_self)
    have hy := Number.beq_reread (hplain y (List.mem_cons_of_mem _ List.mem_cons_self))
    exact StageDirection.beq_of (Params.beq_of (Placement.beq_coords hx hy) rfl rfl rfl)

end VisualNovel

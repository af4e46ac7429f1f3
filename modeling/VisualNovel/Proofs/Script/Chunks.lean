import VisualNovel.Proofs.Script.Numerals
import VisualNovel.Proofs.Script.Quoted

/-!
The words that phrases are written with. A phrase is a row of chunks with a space before each, and
each chunk is read back as one token that says the same.
-/

namespace VisualNovel

/-- What stands between two spaces of a phrase. -/
inductive Chunk where
  | word (w : String)
  | text (s : String)
  | number (x : Float)
  | layer (n : Int)

/-- A chunk as it is written. -/
def Chunk.written : Chunk → List Char
  | word w => w.toList
  | text s => (quotedText s).toList
  | number x => (Number.shortestOrWhole x).toList
  | layer n => (toString n).toList

/-- Chunks with a space before each. -/
def Chunk.row (chunks : List Chunk) : List Char := chunks.flatMap fun c => ' ' :: c.written

/-- The one or two words of a place. -/
def Position.chunks : Position → List Chunk
  | .center => [.word "center"]
  | .farLeft => [.word "far", .word "left"]
  | .farRight => [.word "far", .word "right"]
  | .left => [.word "left"]
  | .right => [.word "right"]
  | .invisibleLeft => [.word "invisible", .word "left"]
  | .invisibleRight => [.word "invisible", .word "right"]

/-- The options of an actor, as far as they are given. -/
def Entrance.chunks (e : Entrance) : List Chunk :=
  (e.place.map fun p => .word "at" :: p.chunks).getD [] ++
    (e.facing.map fun f => [.word "looking", .word (Vocabulary.word f)]).getD [] ++
    (e.emotion.map fun e => [.word "as", .word e]).getD []

/-- The options of an animation, as far as they are given. -/
def Showing.chunks (s : Showing) : List Chunk :=
  (s.position.map fun (x, y) => [.word "at", .number x, .number y]).getD [] ++
    (s.scale.map fun x => [.word "scale", .number x]).getD [] ++
    (s.layer.map fun n => [.word "layer", .layer n]).getD []

/-- The chunks of a phrase. -/
def Phrase.chunks : Phrase → List Chunk
  | sceneBegins name => [.word "Scene", .text name, .word "begins"]
  | backgroundChanges id => [.word "Background", .word "changes", .word "to", .text id]
  | panelChanges panel id scaling =>
    [.word "GUI", .word (Vocabulary.word panel), .word "changes", .word "to", .text id] ++
      (scaling.map fun s => [.word (Vocabulary.word s)]).getD []
  | actorAppears name e => .word name :: .word "appears" :: e.chunks
  | actorDisappears name => [.word name, .word "disappears"]
  | actorFadesIn name e => .word name :: .word "fades" :: .word "in" :: e.chunks
  | actorFadesOut name => [.word name, .word "fades", .word "out"]
  | actorMoves name place => .word name :: .word "moves" :: .word "to" :: place.chunks
  | actorLooks name facing => [.word name, .word "looks", .word (Vocabulary.word facing)]
  | animationAppears name s => .word "Animation" :: .word name :: .word "appears" :: s.chunks
  | animationFades name fade =>
    [.word "Animation", .word name, .word "fades", .word (Vocabulary.word fade)]
  | animationMoves name x y =>
    [.word "Animation", .word name, .word "moves", .word "to", .number x, .number y]
  | animationLooks name facing =>
    [.word "Animation", .word name, .word "looks", .word (Vocabulary.word facing)]

/-! ### Writing -/

namespace Chunk

@[simp] theorem row_nil : row [] = [] := rfl

@[simp] theorem row_cons (c : Chunk) (chunks : List Chunk) :
    row (c :: chunks) = ' ' :: (c.written ++ row chunks) := rfl

@[simp] theorem row_append (cs ds : List Chunk) : row (cs ++ ds) = row cs ++ row ds :=
  List.flatMap_append

end Chunk

theorem Position.written (p : Position) :
    (" " ++ Vocabulary.word p).toList = Chunk.row p.chunks := by
  cases p <;> rfl

theorem Entrance.written (e : Entrance) (direction : Option Fade) :
    ∃ text, (e.params direction).actorOptions = .ok text ∧ text.toList = Chunk.row e.chunks := by
  obtain ⟨place, facing, emotion⟩ := e
  cases place <;> cases facing <;> cases emotion <;> refine ⟨_, rfl, ?_⟩ <;>
    simp [Entrance.params, Entrance.chunks, Chunk.written, ← Position.written, toString]

theorem Showing.written (s : Showing) :
    ∃ text, s.params.animationOptions = .ok text ∧ text.toList = Chunk.row s.chunks := by
  obtain ⟨position, scale, layer⟩ := s
  cases position <;> cases scale <;> cases layer <;> refine ⟨_, rfl, ?_⟩ <;>
    simp [Showing.params, Showing.chunks, Chunk.written]

/-- A phrase is written as its chunks, in parentheses. -/
theorem Phrase.written (p : Phrase) :
    ∃ text, p.direction.written = .ok text ∧
      text.toList = '(' :: ((Chunk.row p.chunks).tail ++ [')']) := by
  cases p with
  | sceneBegins name | backgroundChanges id | actorDisappears name | actorFadesOut name
  | actorLooks name facing | animationFades name fade | animationMoves name x y
  | animationLooks name facing =>
    refine ⟨_, rfl, ?_⟩
    simp [direction, chunks, Chunk.written, Target.nameText, Vocabulary.word]
  | panelChanges panel id scaling =>
    cases scaling <;> refine ⟨_, rfl, ?_⟩ <;>
      simp [direction, chunks, Chunk.written]
  | actorAppears name e =>
    obtain ⟨text, htext, hrow⟩ := e.written none
    refine ⟨"(" ++ (name ++ " appears" ++ text) ++ ")", ?_, ?_⟩
    · simp only [direction, StageDirection.written, htext]
      rfl
    · simp [chunks, Chunk.written, hrow]
  | actorFadesIn name e =>
    obtain ⟨text, htext, hrow⟩ := e.written (some .fadeIn)
    refine ⟨"(" ++ (name ++ " fades " ++ "in" ++ text) ++ ")", ?_, ?_⟩
    · simp only [direction, StageDirection.written, htext]
      rfl
    · simp [chunks, Chunk.written, hrow]
  | actorMoves name place =>
    refine ⟨_, rfl, ?_⟩
    simp [direction, chunks, Chunk.written, Target.nameText, ← Position.written]
  | animationAppears name s =>
    obtain ⟨text, htext, hrow⟩ := s.written
    refine ⟨"(" ++ ("Animation " ++ name ++ " appears" ++ text) ++ ")", ?_, ?_⟩
    · simp only [direction, StageDirection.written, htext]
      rfl
    · simp [chunks, Chunk.written, hrow]

end VisualNovel

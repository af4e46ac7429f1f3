/-!
Scenes on top of one another. Only the topmost scene gets input and time; all are drawn, from the
bottom up.
-/

namespace VisualNovel

/-- The scenes, the topmost last, and whether the program is to end. -/
structure SceneStack (σ : Type) where
  scenes : List σ := []
  quitRequested : Bool := false
  deriving Repr, DecidableEq

namespace SceneStack

variable {σ : Type}

/-- The topmost scene. -/
def active? (s : SceneStack σ) : Option σ := s.scenes.getLast?

/-- The stack with a scene on top. -/
def push (s : SceneStack σ) (scene : σ) : SceneStack σ := { s with scenes := s.scenes ++ [scene] }

/-- The topmost scene and the stack without it. Nothing left to show ends the program. -/
def pop (s : SceneStack σ) : Option σ × SceneStack σ :=
  match s.active? with
  | none => (none, s)
  | some scene =>
    let below := s.scenes.dropLast
    (some scene, ⟨below, s.quitRequested || below.isEmpty⟩)

/-- The stack with another scene in place of the topmost. -/
def replaceActive (s : SceneStack σ) (scene : σ) : SceneStack σ :=
  { s with scenes := s.scenes.dropLast ++ [scene] }

def requestQuit (s : SceneStack σ) : SceneStack σ := { s with quitRequested := true }

end SceneStack

end VisualNovel

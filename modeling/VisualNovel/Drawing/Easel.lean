import VisualNovel.Drawing.ImageStore
import VisualNovel.Drawing.Slices

/-!
Drawing: strokes on a surface, in the order in which they are made.
-/

namespace VisualNovel

/-- One thing done to the surface. -/
inductive Stroke where
  /-- The whole surface takes a colour, which is whatever the settings give for one. -/
  | fill (color : List Data)
  /-- From now on only a part of the surface changes. -/
  | clip (area : Rect)
  | blit (p : Picture) (x y : Int)

/-- A surface with the strokes on it, and the images that can be drawn. -/
structure Easel where
  images : ImageStore := {}
  width : Int
  height : Int
  strokes : List Stroke := []

abbrev Draw (α : Type) := Act DrawError Easel α

namespace Draw

/-- The width and the height of the surface. -/
def size : Draw (Int × Int) := Act.view fun e => (e.width, e.height)

/-- The surface as a rectangle. -/
def area : Draw Rect := do
  let (width, height) ← size
  Rect.make 0 0 width height

def stroke (s : Stroke) : Draw Unit :=
  Act.change fun e => { e with strokes := e.strokes ++ [s] }

def fill (color : Color) : Draw Unit := stroke (.fill (color.map .int))

def blit (p : Picture) (x y : Int) : Draw Unit := stroke (.blit p x y)

/-- Work with the images of the easel. -/
def imaging {α : Type} (work : Imaging α) : Draw α :=
  work.zoom (·.images) fun images e => { e with images }

/-- The image of a sprite. -/
def image (id : String) : Draw Picture := return (← imaging (Imaging.load id)).2

/-- A number of pixels; the fraction of one is cut off. -/
def pixels (x : Float) : Draw Int :=
  match Number.truncate x with
  | .ok n => return n
  | .error e => throw (.notPixels e)

/-- The quotient of two lengths. -/
def ratio (a b : Int) : Draw Float :=
  if b = 0 then throw .noSize else return Number.ofQuotient a b

/-- A picture over all of a rectangle: scaled so that it just covers it, centred, and clipped. -/
def cover (p : Picture) (r : Rect) : Draw Unit := do
  let horizontal ← ratio r.width p.width
  let vertical ← ratio r.height p.height
  let factor := if horizontal < vertical then vertical else horizontal
  let width := max 1 (← pixels (Number.ofInt p.width * factor))
  let height := max 1 (← pixels (Number.ofInt p.height * factor))
  let scaled ← p.scale width height
  let whole ← area
  stroke (.clip r)
  blit scaled (r.x + (r.width - width) / 2) (r.y + (r.height - height) / 2)
  stroke (.clip whole)

/-- A picture stretched over a rectangle. -/
def stretch (p : Picture) (r : Rect) : Draw Unit := do
  blit (← p.scale r.width r.height) r.x r.y

/-- A picture over a rectangle in nine pieces, or stretched as a whole if it has no corners. -/
def sliced (p : Picture) (r : Rect) (border : Int) : Draw Unit := do
  let corner := cornerSize p.width p.height border r
  if corner = 0 then stretch p r
  else
    let some pieces := slices? p.width p.height corner r | throw .noRect
    pieces.forM fun (source, place) => do
      let piece := p.cut source
      let piece ←
        if source.width = place.width ∧ source.height = place.height then pure piece
        else piece.scale place.width place.height
      blit piece place.x place.y

/-- Lines of text, one below the other. -/
def textLines (font : Font) (color : Color) (x y : Int) : List (List Char) → Draw Unit
  | [] => return
  | line :: rest => do
    blit (← Picture.ofText font color line) x y
    textLines font color x (y + font.lineHeight) rest

end Draw

end VisualNovel

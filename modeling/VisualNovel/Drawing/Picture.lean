import VisualNovel.Drawing.Font
import VisualNovel.Drawing.Rect
import VisualNovel.Number.Binary64

/-!
Pictures as records of how they were made: what they started from, and what was done to them since.
Pixels do not matter here, so two pictures with one record are the same.
-/

namespace VisualNovel

/-- A colour by its parts: red, green, blue and sometimes opacity. -/
abbrev Color := List Int

/-- What a picture started from. -/
inductive Origin where
  | blank
  | file (path : String)
  | text (font : Font) (color : Color) (content : String)
  /-- A picture from elsewhere, by its name. -/
  | given (name : String)
  deriving Repr, DecidableEq

/-- One thing done to a picture. -/
inductive Edit where
  | fill (color : Color)
  | box (color : Color) (area : Rect)
  | line (x y x' y' : Int)
  | scale (width height : Int)
  | flip
  | opacity (n : Int)
  | convert
  | cut (area : Rect)
  deriving Repr, DecidableEq

structure Picture where
  origin : Origin
  edits : List Edit := []
  width : Int
  height : Int
  deriving Repr, DecidableEq

/-- Why nothing can be drawn. -/
inductive DrawError where
  /-- A new picture of a negative size. -/
  | negativePicture
  /-- A negative size to scale a picture to. -/
  | negativeScale
  /-- A size or place that is no number of pixels. -/
  | notPixels (e : Number.NotWhole)
  /-- A picture without width or height whose proportions are asked for. -/
  | noSize
  /-- Sizes that are not a width and a height. -/
  | notAPair
  /-- The id of an image that names no file. -/
  | noName
  /-- An entry beyond the last one. -/
  | noEntry
  /-- Numbers that are too large for a rectangle. -/
  | noRect
  deriving Repr, DecidableEq

/-- Numbers in a row, with commas between them. -/
def commaSeparated (xs : List Int) : String := String.intercalate "," (xs.map toString)

namespace Rect

/-- The rectangle of four numbers, where they make one. -/
def make (x y width height : Int) : Except DrawError Rect :=
  match ofNumbers? x y width height with
  | some r => .ok r
  | none => .error .noRect

/-- The rectangle of a size around a middle, where there is one. -/
def around (width height : Int) (middle : Int × Int) : Except DrawError Rect :=
  match around? width height middle with
  | some r => .ok r
  | none => .error .noRect

def label (r : Rect) : String := "(" ++ commaSeparated [r.x, r.y, r.width, r.height] ++ ")"

end Rect

def Color.label (c : Color) : String := "(" ++ commaSeparated c ++ ")"

def Origin.label : Origin → String
  | .blank => "surf"
  | .file path => "img:" ++ path
  | .text font color content =>
    s!"text{font.size}" ++ (if font.bold then "b" else "") ++ Color.label color ++ ":" ++ content
  | .given name => name

def Edit.label : Edit → String
  | .fill color => "fill" ++ Color.label color
  | .box color area => "rect" ++ Color.label color ++ area.label
  | .line x y x' y' => "line" ++ Color.label [x, y] ++ Color.label [x', y']
  | .scale width height => "scale" ++ Color.label [width, height]
  | .flip => "flip"
  | .opacity n => "alpha" ++ Color.label [n]
  | .convert => "conv"
  | .cut area => "sub" ++ area.label

namespace Picture

/-- The record of a picture in one line. -/
def label (p : Picture) : String :=
  p.edits.foldl (fun text e => text ++ "|" ++ e.label) p.origin.label

def area (p : Picture) : Except DrawError Rect := Rect.make 0 0 p.width p.height

/-- The picture after a change that keeps its size. -/
def edit (p : Picture) (e : Edit) : Picture := { p with edits := p.edits ++ [e] }

/-- A new picture. -/
def create (origin : Origin) (width height : Int) : Except DrawError Picture :=
  if width < 0 ∨ height < 0 then .error .negativePicture else .ok { origin, width, height }

def blank (width height : Int) : Except DrawError Picture := create .blank width height

/-- A picture of a text. -/
def ofText (font : Font) (color : Color) (text : List Char) : Except DrawError Picture :=
  create (.text font color (String.ofList text)) (font.measure text) font.size

/-- The picture in another size. -/
def scale (p : Picture) (width height : Int) : Except DrawError Picture :=
  if width < 0 ∨ height < 0 then .error .negativeScale
  else .ok { p with edits := p.edits ++ [.scale width height], width, height }

/-- A part of the picture. -/
def cut (p : Picture) (area : Rect) : Picture :=
  { p with edits := p.edits ++ [.cut area], width := area.width, height := area.height }

/-- The picture at an opacity between zero and one; a solid one stays as it is. -/
def atOpacity (p : Picture) (alpha : Float) : Except DrawError Picture :=
  if alpha ≥ 1 then .ok p
  else
    let part := if alpha > 0 then alpha else 0
    match Number.truncate (255 * part) with
    | .ok n => .ok (p.edit (.opacity n))
    | .error e => .error (.notPixels e)

/-- A loud box with a cross, in place of an image that is missing. -/
def placeholder (width height : Int) : Except DrawError Picture := do
  let p ← blank width height
  return (((p.edit (.fill [255, 0, 255])).edit (.box [0, 0, 0] (← p.area))).edit
    (.line 0 0 width height)).edit (.line 0 height width 0)

end Picture

end VisualNovel

import VisualNovel.Drawing.Rect

/-!
Stretching a picture over a rectangle in nine pieces: the corners keep their size, the edges and
the middle give way.
-/

namespace VisualNovel

/-- The size of the corners: as asked for, but at most half of either side of either. -/
def cornerSize (width height border : Int) (area : Rect) : Int :=
  max 0 (min (min (min (min border (width / 2)) (height / 2)) (area.width / 2)) (area.height / 2))

/-- The three stretches of a side from `start` to `stop`, with corners at its ends: where each
    begins, and how long it is. -/
def stretches (start stop corner : Int) : List (Int × Int) :=
  [(start, corner), (start + corner, stop - corner - (start + corner)), (stop - corner, corner)]

/-- The pieces of a picture of a size and the places in a rectangle that they go to, row by row. A
    piece that has no size, or that goes nowhere, is left out. -/
def slices? (width height corner : Int) (area : Rect) : Option (List (Rect × Rect)) := do
  let columns := (stretches 0 width corner).zip (stretches area.x area.right corner)
  let rows := (stretches 0 height corner).zip (stretches area.y area.bottom corner)
  let pieces ← (rows.flatMap fun row => columns.map (row, ·)).mapM
    fun (((sy, sh), (dy, dh)), ((sx, sw), (dx, dw))) => do
      return (← Rect.ofNumbers? sx sy sw sh, ← Rect.ofNumbers? dx dy dw dh)
  return pieces.filter fun (source, place) =>
    0 < source.width && 0 < source.height && 0 < place.width && 0 < place.height

end VisualNovel

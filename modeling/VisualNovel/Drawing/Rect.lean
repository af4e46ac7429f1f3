/-!
Rectangles of whole pixels. The numbers of a rectangle have 32 bits: whatever has 64 is accepted for
them, and what does not fit goes round. For everything that fits this is plain arithmetic.
-/

namespace VisualNovel

/-- A number brought into 32 bits. -/
def goRound (n : Int) : Int := Int.bmod n 4294967296

/-- Numbers of 32 bits are left alone. -/
theorem goRound_of_fits {n : Int} (lower : -2147483648 ≤ n) (upper : n ≤ 2147483647) :
    goRound n = n :=
  Int.bmod_eq_of_le (by omega) (by omega)

/-- A rectangle: its left upper corner and its size. -/
structure Rect where
  x : Int
  y : Int
  width : Int
  height : Int
  deriving Repr, DecidableEq

namespace Rect

/-- Whether a number has at most 64 bits. -/
def isAccepted (n : Int) : Bool := -9223372036854775808 ≤ n && n ≤ 9223372036854775807

/-- The rectangle of four numbers. -/
def ofNumbers? (x y width height : Int) : Option Rect :=
  if [x, y, width, height].all isAccepted then
    some ⟨goRound x, goRound y, goRound width, goRound height⟩
  else none

def right (r : Rect) : Int := goRound (r.x + r.width)
def bottom (r : Rect) : Int := goRound (r.y + r.height)

/-- The middle of a rectangle; half a pixel is cut off. -/
def center (r : Rect) : Int × Int :=
  (goRound (r.x + r.width.tdiv 2), goRound (r.y + r.height.tdiv 2))

/-- Whether a number can be that of a middle. -/
def fits (n : Int) : Bool := -2147483648 ≤ n && n ≤ 2147483647

/-- The rectangle of a size around a middle. -/
def around? (width height : Int) (middle : Int × Int) : Option Rect := do
  let r ← ofNumbers? 0 0 width height
  if fits middle.1 && fits middle.2 then
    return { r with
      x := goRound (middle.1 - r.width.tdiv 2)
      y := goRound (middle.2 - r.height.tdiv 2) }
  else none

/-- The part of a rectangle that lies in another one, of no size if there is none. -/
def clip (r s : Rect) : Rect :=
  let left := max r.x s.x
  let top := max r.y s.y
  let width := min r.right s.right - left
  let height := min r.bottom s.bottom - top
  if width ≤ 0 ∨ height ≤ 0 then ⟨r.x, r.y, 0, 0⟩ else ⟨left, top, width, height⟩

/-- Whether a pixel lies in a rectangle. -/
def contains (r : Rect) (x y : Int) : Bool := r.x ≤ x && x < r.right && r.y ≤ y && y < r.bottom

end Rect

end VisualNovel

import VisualNovel.Data
import VisualNovel.Drawing.Picture

/-!
How the screen looks: colours, sizes in pixels, and sizes in parts of the window's height.
-/

namespace VisualNovel

structure Style where
  background : List Data := [.int 14, .int 15, .int 18]
  text : Color := [235, 235, 235]
  name : Color := [255, 214, 140]
  narrator : Color := [200, 200, 215]
  box : Color := [10, 10, 16, 200]
  fontSize : Int := 26
  actorHeight : Float := 0.78
  boxHeight : Float := 0.26
  /-- The corners of panels whose pictures are stretched in nine pieces. -/
  border : Int := 16
  padding : Int := 18

end VisualNovel

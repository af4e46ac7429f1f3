import VisualNovel.Drawing.Easel
import VisualNovel.Screen.Style

/-!
The screen that tells why there is nothing to play.
-/

namespace VisualNovel.Notice

def draw (style : Style) (message : String) : Draw Unit := do
  let (width, _) ← Draw.size
  Draw.fill [40, 8, 12]
  let font : Font := { size := style.fontSize - 4 }
  Draw.textLines font [255, 200, 200] style.padding style.padding
    (Text.wrap font.measure (width - 2 * style.padding) message.toList)

end VisualNovel.Notice

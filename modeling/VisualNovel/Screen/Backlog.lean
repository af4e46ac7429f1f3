import VisualNovel.Drawing.Easel
import VisualNovel.Screen.Style
import VisualNovel.Story.History

/-!
The backlog: what was said so far, the newest entry at the bottom, over a darkened stage.
-/

namespace VisualNovel.Backlog

/-- How many entries are hidden below the lower edge after scrolling by some. One entry stays. -/
def scrollBy (n total scroll : Int) : Int := max 0 (min (max 0 (total - 1)) (scroll + n))

/-- An entry whose top is at `y`. -/
def drawEntry (style : Style) (font : Font) (y : Int) (speaker : Option String)
    (lines : List (List Char)) : Draw Unit := do
  let x := 2 * style.padding
  match speaker with
  | some name =>
    Draw.blit (← Picture.ofText { font with bold := true } style.name name.toList) x y
    Draw.textLines font style.text x (y + font.lineHeight) lines
  | none => Draw.textLines font style.text x y lines

/-- Entries upwards from a lower edge, the newest first, as far as they fit. -/
def drawEntries (style : Style) (font : Font) (width y : Int) : List HistoryEntry → Draw Unit
  | [] => return
  | entry :: rest => do
    let lines := Text.wrap font.measure width entry.text.toList
    let speaker := entry.speaker.filter fun name => !name.isEmpty
    let rows : Int := lines.length + if speaker.isSome then 1 else 0
    let top := y - (rows * font.lineHeight + style.padding / 2)
    if top < style.padding then return
    else do
      drawEntry style font top speaker lines
      drawEntries style font width top rest

/-- The backlog with some entries hidden below the lower edge. -/
def draw (style : Style) (entries : List HistoryEntry) (scroll : Int) : Draw Unit := do
  let (width, height) ← Draw.size
  let shade ← Picture.blank width height
  Draw.blit (shade.edit (.fill [0, 0, 0, 210])) 0 0
  if scroll < 0 then throw .noEntry
  let font : Font := { size := style.fontSize - 4 }
  drawEntries style font (width - 4 * style.padding) (height - 2 * style.padding)
    (entries.take (entries.length - scroll.toNat)).reverse

end VisualNovel.Backlog

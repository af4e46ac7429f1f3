import VisualNovel.Drawing.Easel
import VisualNovel.Screen.Style
import VisualNovel.Stage.Stage

/-!
The picture of the stage: the background, the actors, the animations by layer, the dialogue in its
box, and the log.
-/

namespace VisualNovel.StageView

/-- The place of the dialogue box: along the lower edge, with a margin. -/
def boxArea (style : Style) : Draw Rect := do
  let (windowWidth, windowHeight) ← Draw.size
  let height ← Draw.pixels (Number.ofInt windowHeight * style.boxHeight)
  let margin := style.padding
  Rect.make margin (windowHeight - height - margin) (windowWidth - 2 * margin) height

/-- The place at a percentage of a length. -/
def atPercent (length : Int) (percent : Float) : Draw Int :=
  Draw.pixels (Number.ofInt length * percent / 100)

/-- A picture as someone who faces one way or the other; pictures face right. -/
def facing (f : Facing) (p : Picture) : Picture := if f == .left then p.edit .flip else p

/-- An actor, as high as the style says, standing on the lower edge. -/
def drawActor (style : Style) (actor : Actor Float) : Draw Unit := do
  match actor.sprite? with
  | none => return
  | some sprite =>
    let (windowWidth, windowHeight) ← Draw.size
    let height ← Draw.pixels (Number.ofInt windowHeight * style.actorHeight)
    let p ← Draw.image sprite
    let width := max 1 (← Draw.pixels (← Draw.ratio (p.width * height) p.height))
    let p := facing actor.facing (← p.scale width height)
    let p ← p.atOpacity actor.alpha
    Draw.blit p (← atPercent windowWidth actor.x) (windowHeight - height)

/-- The animation's picture at this moment, around its position. -/
def drawAnimation (a : Animated Float) : Draw Unit := do
  let (windowWidth, windowHeight) ← Draw.size
  let index ←
    match a.frame with
    | .ok n => pure n
    | .error e => throw (.notPixels e)
  let (width, height) := (a.sheet.frameWidth, a.sheet.frameHeight)
  let (_, p) ← Draw.imaging (Imaging.frame a.sheet.sheet index width height)
  let p ←
    if a.scale == 1 then pure p
    else do
      let width ← Draw.pixels (Number.ofInt width * a.scale)
      let height ← Draw.pixels (Number.ofInt height * a.scale)
      p.scale (max 1 width) (max 1 height)
  let p := facing a.facing p
  let x ← atPercent windowWidth (a.position.headD 0)
  let y ← atPercent windowHeight ((a.position.drop 1).headD 0)
  let p ← p.atOpacity a.alpha
  let place ← Rect.around p.width p.height (x, y)
  Draw.blit p place.x place.y

/-- A panel: the picture that the script gave it, or a plain box. -/
def drawPanel (style : Style) (stage : Stage Float) (panel : Panel) (area : Rect) : Draw Unit := do
  match stage.panels.get? panel with
  | none =>
    let p ← Picture.blank area.width area.height
    Draw.blit (p.edit (.box style.box (← p.area))) area.x area.y
  | some picture =>
    let p ← Draw.image ("gui/" ++ picture.sprite.getD "None")
    if picture.scaling == .sliced then Draw.sliced p area style.border else Draw.stretch p area

/-- The name of whoever speaks, above the box. -/
def drawName (style : Style) (stage : Stage Float) (box : Rect) (speaker : String) : Draw Unit := do
  let font : Font := { size := style.fontSize, bold := true }
  let name ← Picture.ofText font style.name speaker.toList
  let plate ← Rect.make box.x (box.y - name.height - style.padding)
    (name.width + 2 * style.padding) (name.height + style.padding)
  drawPanel style stage .namebox plate
  let place ← Rect.around name.width name.height plate.center
  Draw.blit name place.x place.y

/-- The lines that fit above a lower edge. -/
def fittingLines (font : Font) (bottom y : Int) : List (List Char) → List (List Char)
  | [] => []
  | line :: rest =>
    if bottom < y + font.lineHeight then []
    else line :: fittingLines font bottom (y + font.lineHeight) rest

/-- The line of dialogue in its box, as far as it has appeared. -/
def drawDialogue (style : Style) (stage : Stage Float) (line : RevealedLine Float) : Draw Unit := do
  let box ← boxArea style
  drawPanel style stage .textbox box
  let font : Font := { size := style.fontSize }
  match line.speaker with
  | some speaker =>
    if speaker.isEmpty || stage.narrating then pure () else drawName style stage box speaker
  | none => pure ()
  let color := if stage.narrating then style.narrator else style.text
  let top := box.y + style.padding
  let text := (line.visibleText.getD "").toList
  let lines := Text.wrap font.measure (box.width - 2 * style.padding) text
  Draw.textLines font color (box.x + style.padding) top (fittingLines font box.bottom top lines)

/-- The log, in the upper left corner. -/
def drawLog (style : Style) (stage : Stage Float) : Draw Unit :=
  let font : Font := { size := max 12 (style.fontSize - 8) }
  Draw.textLines font style.narrator style.padding style.padding
    (stage.log.map fun line => (line.getD "").toList)

/-- The whole stage. Animations of one layer keep the order in which they came. -/
def draw (style : Style) (stage : Stage Float) : Draw Unit := do
  let whole ← Draw.area
  Draw.stroke (.fill style.background)
  match stage.background with
  | some id =>
    if id.isEmpty then pure () else Draw.cover (← Draw.image ("backgrounds/" ++ id)) whole
  | none => pure ()
  stage.actors.values.forM (drawActor style)
  (stage.animations.values.mergeSort fun a b => a.layer ≤ b.layer).forM drawAnimation
  match stage.box.line with
  | some line => drawDialogue style stage line
  | none => pure ()
  drawLog style stage

end VisualNovel.StageView

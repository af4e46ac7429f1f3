import VisualNovel.Cast.Directory
import VisualNovel.Performance.Basic
import VisualNovel.Player.Input
import VisualNovel.Player.SceneStack
import VisualNovel.Screen.Backlog
import VisualNovel.Screen.Notice
import VisualNovel.Screen.StageView
import VisualNovel.Settings.Basic

/-!
The player: a novel that is performed, and the backlog that can be opened over it. What cannot be
loaded is told on the screen.
-/

namespace VisualNovel

/-- The scenes of the player. -/
inductive Layer where
  | novel
  /-- The backlog, with so many entries hidden below its lower edge. -/
  | backlog (scroll : Int)
  deriving Repr, DecidableEq

/-- Why the player cannot go on. -/
inductive PlayerError where
  | definition (e : DefinitionError)
  | play (e : PlayError)
  | draw (e : DrawError)

structure Player where
  settings : Settings
  performance : Performance Float
  images : ImageStore := {}
  problem : Option String := none
  layers : SceneStack Layer := {}

/-- The message about a script that does not compile or cannot be read. -/
def LoadError.message? (e : LoadError) : Option String :=
  match e with
  | .compile (.malformed e) => some e.message
  | .compile (.unsound e) => some e.message
  | _ => e.fileMessage?.map (·.2)

/-- The message about a script that cannot be started. -/
def PlayError.loadMessage? : PlayError → Option String
  | .story (.load e) => e.message?
  | _ => none

namespace Player

abbrev Playing (β : Type) := Act PlayerError Player β

/-- The cast of the configured directory, or none and what is wrong with it. -/
def openCast (settings : Settings) (files : FileTree) :
    Except PlayerError (Cast × Option String) :=
  match Cast.ofDirectory files (Path.ofString settings.paths.assets) with
  | .ok cast => .ok (cast, none)
  | .error e =>
    match e.message? with
    | some message => .ok ({}, some ("Asset definition error\n\n" ++ message))
    | none => .error (.definition e)

/-- The novel before it begins. -/
def ofSettings (settings : Settings) (files : FileTree) (images : ImageStore) :
    Except PlayerError Player := do
  let (cast, problem) ← openCast settings files
  let stage := Stage.empty cast settings.reveal settings.effects
  let story : Story :=
    { bindings := settings.bindings.map fun (name, value) => (name, .text value)
      settings := settings.runtime }
  let performance : Performance Float :=
    { files, story, repertoire := { root := Path.ofString settings.paths.scripts } }
  return { settings, problem, performance := performance.withStage stage
           images := images.setRoot (Path.ofString settings.paths.assets) }

/-- An operation on the performance. -/
def cue (c : Cue Float) : Playing CueAnswer :=
  ((Play.cue c).mapFailure PlayerError.play).zoom (·.performance)
    fun performance p => { p with performance }

/-- The novel comes on, and its first script is started. -/
def enter : Playing Unit := do
  Act.change fun p => { p with layers := p.layers.push .novel }
  let p ← get
  if p.problem.isSome then return
  let id := p.settings.start
  let (outcome, performance) := (Play.cue (.start id)).outcome p.performance
  Act.change fun p => { p with performance }
  match outcome with
  | .ok _ => return
  | .error e =>
    match e.loadMessage? with
    | some message =>
      Act.change fun p =>
        { p with problem := some ("Could not load " ++ id.toString ++ "\n\n" ++ message) }
    | none => throw (.play e)

/-- The player at the beginning of its first script. -/
def start (settings : Settings) (files : FileTree) (images : ImageStore) :
    Except PlayerError Player := do
  let (outcome, p) := enter.outcome (← ofSettings settings files images)
  match outcome with
  | .ok () => return p
  | .error e => throw e

/-! ### Input -/

def changeLayers (f : SceneStack Layer → SceneStack Layer) : Playing Unit :=
  Act.change fun p => { p with layers := f p.layers }

/-- A press of the player on the novel. -/
def press : Playing Unit := do
  if (← get).problem.isSome then return
  discard (cue .pressThrough)

/-- The backlog is opened, unless there is a problem instead of a novel; whether it is. -/
def openBacklog : Playing Bool := do
  if (← get).problem.isSome then return false
  changeLayers (·.push (.backlog 0))
  return true

/-- Input to the novel; whether it means something there. -/
def handleOnNovel : Input → Playing Bool
  | .key .escape => do
    changeLayers (·.requestQuit)
    return true
  | .key .h => openBacklog
  | .key k => do
    if k.advances then
      press
      return true
    else return false
  | .click 1 => do
    press
    return true
  | .wheel y => if 0 < y then openBacklog else return false
  | _ => return false

/-- The backlog is scrolled. -/
def scroll (n scrolled : Int) : Playing Unit := do
  let total := (← get).performance.story.history.length
  changeLayers (·.replaceActive (.backlog (Backlog.scrollBy n total scrolled)))

/-- Input to the backlog; whether it means something there. No key gets past it. -/
def handleOnBacklog (scrolled : Int) : Input → Playing Bool
  | .key k => do
    match k with
    | .h | .escape => changeLayers (·.pop.2)
    | .up => scroll 1 scrolled
    | .pageUp => scroll 5 scrolled
    | .down => scroll (-1) scrolled
    | .pageDown => scroll (-5) scrolled
    | _ => return true
    return true
  | .wheel y => do
    scroll y scrolled
    return true
  | .click button => do
    if button = 1 ∨ button = 3 then
      changeLayers (·.pop.2)
      return true
    else return false
  | _ => return false

/-- Input to the topmost scene; whether it means something there. -/
def handle (i : Input) : Playing Bool := do
  match (← get).layers.active? with
  | none => return false
  | some .novel => handleOnNovel i
  | some (.backlog scrolled) => handleOnBacklog scrolled i

/-! ### Time -/

/-- Time passes, unless the backlog covers the novel. -/
def update (dt : Float) : Playing Unit := do
  let p ← get
  match p.layers.active? with
  | some .novel => if p.problem.isSome then return else discard (cue (.frame dt))
  | _ => return

/-! ### Drawing -/

def style (p : Player) : Style := { background := p.settings.window.background }

/-- The words at the end of the story, in the middle of the window. -/
def drawEnding (style : Style) : Draw Unit := do
  let label ← Picture.ofText { size := style.fontSize } style.text "The End  (Esc to quit)".toList
  let place ← Rect.around label.width label.height (← Draw.area).center
  Draw.blit label place.x place.y

def drawNovel (p : Player) : Draw Unit := do
  match p.problem, p.performance.stage with
  | some message, _ => Notice.draw p.style message
  | none, none => return
  | none, some stage =>
    StageView.draw p.style stage
    if p.performance.story.isHalted then drawEnding p.style

/-- All scenes, from the bottom up. -/
def drawLayers (p : Player) : Draw Unit :=
  p.layers.scenes.forM fun
    | .novel => drawNovel p
    | .backlog scrolled => Backlog.draw p.style p.performance.story.history.entries scrolled

/-- The strokes of a frame in a window of a size. -/
def draw (width height : Int) : Playing (List Stroke) := do
  let p ← get
  let (outcome, easel) := (drawLayers p).outcome { images := p.images, width, height }
  Act.change fun p => { p with images := easel.images }
  match outcome with
  | .ok () => return easel.strokes
  | .error e => throw (.draw e)

end Player

end VisualNovel

import VisualNovel.Player.Player
import VisualNovel.Stage.Scalar

/-!
The window and its loop: each frame takes the time since the last one and the input of the
meantime, lets the player go on, and shows it.
-/

namespace VisualNovel

/-- What is asked of the window. -/
inductive WindowCall where
  | init
  | caption (title : String)
  | setMode (width height : Int)
  | tick (framesPerSecond : Int)
  | toggleFullscreen
  | flip
  | quit
  deriving Repr, DecidableEq

/-- What a frame brings: the milliseconds since the last one, the input, and whether the control
    key is held. -/
structure Frame where
  milliseconds : Float
  inputs : List Input
  control : Bool := false

/-- What a frame shows: the calls since the last one, the strokes, and the player and the window
    after it. -/
structure Shown where
  calls : List WindowCall
  strokes : List Stroke
  player : Player
  width : Int
  height : Int

structure App where
  player : Player
  width : Int
  height : Int
  isRunning : Bool := true
  /-- The calls since the last frame was shown. -/
  calls : List WindowCall := []

namespace App

abbrev Running (β : Type) := Act PlayerError App β

/-- The window opens, which it cannot with a negative size, and the player begins. -/
def start (settings : Settings) (files : FileTree) (images : ImageStore) :
    Except PlayerError App := do
  let w := settings.window
  discard ((Picture.blank w.width w.height).mapError PlayerError.draw)
  let player ← Player.start settings files { images with hasDisplay := true }
  return { player, width := w.width, height := w.height
           calls := [.init, .caption w.title, .setMode w.width w.height] }

def call (c : WindowCall) : Running Unit := Act.change fun a => { a with calls := a.calls ++ [c] }

def stop : Running Unit := Act.change fun a => { a with isRunning := false }

/-- Work of the player. -/
def playing {β : Type} (work : Player.Playing β) : Running β :=
  work.zoom (·.player) fun player a => { a with player }

/-- The window takes a size of at least one pixel. -/
def resize (width height : Int) : Running Unit := do
  let (width, height) := (max 1 width, max 1 height)
  Act.change fun a => { a with width, height }
  call (.setMode width height)

/-- Input that the player has no use for. -/
def handleLeftOver (control : Bool) : Input → Running Unit
  | .key .f11 => call .toggleFullscreen
  | .key .q => if control then stop else return
  | _ => return

/-- The input of a frame. Closing the window drops what comes after. -/
def handleAll (control : Bool) : List Input → Running Unit
  | [] => return
  | .quit :: _ => stop
  | .resize width height :: rest => do
    resize width height
    handleAll control rest
  | i :: rest => do
    if !(← playing (Player.handle i)) then handleLeftOver control i
    handleAll control rest

/-- The longest time that a frame may take for the story, in seconds. -/
def longestFrame : Float := 0.1

/-- One frame. It is shown also if it was the last. -/
def frame (f : Frame) : Running Shown := do
  call (.tick (← get).player.settings.framesPerSecond)
  handleAll f.control f.inputs
  playing (Player.update (Scalar.least longestFrame (f.milliseconds / 1000)))
  let a ← get
  let strokes ← playing (Player.draw a.width a.height)
  call .flip
  let a ← get
  Act.change fun a => { a with calls := [] }
  return { calls := a.calls, strokes, player := a.player, width := a.width, height := a.height }

/-- Whether there is a next frame. -/
def goesOn (a : App) : Bool := a.isRunning && !a.player.layers.quitRequested

/-- Frame after frame while the program goes on. After the last frame given the window is
    closed. -/
def frames : List Frame → Running (List Shown)
  | [] => do
    if (← get).goesOn then return [← frame { milliseconds := 0, inputs := [.quit] }] else return []
  | f :: rest => do
    if (← get).goesOn then return (← frame f) :: (← frames rest) else return []

/-- Frame after frame until the program ends. -/
def run (fs : List Frame) : Running (List Shown) := do
  let shown ← frames fs
  call .quit
  return shown

end App

end VisualNovel

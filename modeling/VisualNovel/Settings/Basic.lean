import VisualNovel.Script.Repertoire
import VisualNovel.Settings.Runtime
import VisualNovel.Stage.Stage

/-!
The settings of the player, with the values they have when a settings file does not say otherwise.
-/

namespace VisualNovel

/-- The window: its size, its title, and its background as whatever the settings file gives for a
    colour. -/
structure WindowSettings where
  width : Int := 1280
  height : Int := 800
  title : String := "Sabi"
  background : List Data := [.int 14, .int 15, .int 18]

/-- Where scripts and assets are. -/
structure PathSettings where
  scripts : String := "game/content"
  assets : String := "game/assets"
  deriving DecidableEq

structure Settings where
  framesPerSecond : Int := 60
  logLevel : String := "INFO"
  window : WindowSettings := {}
  reveal : RevealParams Float := .standard
  effects : EffectDurations Float := .standard
  runtime : RuntimeSettings := {}
  paths : PathSettings := {}
  /-- The script that the player begins with. -/
  start : ScriptId := ⟨"Chapter 1", "1"⟩
  bindings : Table String String := []

namespace WindowSettings

/-- Whether two windows have the same settings; numbers of one value are the same. -/
def same (a b : WindowSettings) : Bool :=
  a.width == b.width && a.height == b.height && a.title == b.title &&
    a.background.length == b.background.length &&
    (a.background.zip b.background).all fun (x, y) => x.sameScalar y

end WindowSettings

namespace Settings

/-- Whether everything has the value that it has without a settings file. -/
def isDefault (s : Settings) : Bool :=
  let d : Settings := {}
  s.framesPerSecond == d.framesPerSecond && s.logLevel == d.logLevel && s.window.same d.window &&
    s.reveal.charsPerSecond == d.reveal.charsPerSecond &&
    s.reveal.shortPause == d.reveal.shortPause && s.reveal.longPause == d.reveal.longPause &&
    s.reveal.ellipsisPause == d.reveal.ellipsisPause && s.effects.move == d.effects.move &&
    s.effects.fade == d.effects.fade && s.runtime == d.runtime && s.paths == d.paths &&
    s.start == d.start && s.bindings.isEmpty

end Settings

end VisualNovel

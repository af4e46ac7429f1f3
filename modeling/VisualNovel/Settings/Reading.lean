import VisualNovel.Settings.Basic
import VisualNovel.Text.Capitals
import VisualNovel.Yaml.File

/-!
Settings files: mappings of mappings, in which every key is optional. A value may be of any kind
that can be turned into the kind of the setting.
-/

namespace VisualNovel

/-- Why a settings file cannot be used. The key says which setting is at fault. -/
inductive SettingsError where
  | file (flaw : Yaml.FileFlaw)
  /-- A text that writes no number, no number where a whole one is needed, or a number that is too
      long to be written. -/
  | notNumeral (key : String)
  /-- A value of a kind that cannot be turned into a number, into a list or into a path. -/
  | wrongKind (key : String)
  | tooLarge (key : String)
  | notMapping (key : String)
  deriving Repr, DecidableEq

namespace Data

/-- The datum under nested keys. -/
def at? : List String → Data → Option Data
  | [], d => some d
  | key :: rest, .map entries => (get? key entries).bind (at? rest)
  | _, _ => none

/-- The whole number that a datum is turned into; a real one loses its fraction. -/
def toWhole (key : String) : Data → Except SettingsError Int
  | .bool b => .ok (if b then 1 else 0)
  | .int n => .ok n
  | .float x =>
    match Number.truncate x with
    | .ok n => .ok n
    | .error .nan => .error (.notNumeral key)
    | .error .infinite => .error (.tooLarge key)
  | .text s =>
    match Number.readWhole? s.toList with
    | some n => .ok n
    | none => .error (.notNumeral key)
  | _ => .error (.wrongKind key)

/-- The double that a datum is turned into. -/
def toReal (key : String) : Data → Except SettingsError Float
  | .bool b => .ok (if b then 1 else 0)
  | .int n =>
    let x := Number.ofInt n
    if x.isInf then .error (.tooLarge key) else .ok x
  | .float x => .ok x
  | .text s =>
    match Number.readReal? s.toList with
    | some x => .ok x
    | none => .error (.notNumeral key)
  | _ => .error (.wrongKind key)

/-- The list that a datum is turned into: the items of a list, the characters of a text or the keys
    of a mapping. -/
def toItems (key : String) : Data → Except SettingsError (List Data)
  | .list items => .ok items
  | .text s => .ok (s.toList.map fun c => .text (String.singleton c))
  | .map entries => .ok (entries.map (·.1))
  | _ => .error (.wrongKind key)

end Data

namespace Settings

/-- The setting under nested keys, read by `f`, or else its default. -/
def setting {β : Type} (d : Data) (path : List String) (f : String → Data → Except SettingsError β)
    (default : β) : Except SettingsError β :=
  match d.at? path with
  | some value => f (String.intercalate "." path) value
  | none => .ok default

/-- The text that a datum is turned into. -/
def readText (key : String) (d : Data) : Except SettingsError String :=
  match d.display? with
  | some s => .ok s
  | none => .error (.notNumeral key)

/-- The variables of a mapping: texts by texts. -/
def readVariables (key : String) (d : Data) : Except SettingsError (Table String String) :=
  match d with
  | .map entries =>
    entries.foldlM (fun t (k, v) => do return Table.put t (← readText key k) (← readText key v)) []
  | _ => if d.isTruthy then .error (.notMapping key) else .ok []

/-- The settings that a datum gives. -/
def ofData (d : Data) : Except SettingsError Settings := do
  let s : Settings := {}
  let framesPerSecond ← setting d ["fps"] Data.toWhole s.framesPerSecond
  let level ← setting d ["logging", "level"] readText s.logLevel
  let width ← setting d ["window", "width"] Data.toWhole s.window.width
  let height ← setting d ["window", "height"] Data.toWhole s.window.height
  let title ← setting d ["window", "title"] readText s.window.title
  let background ← setting d ["window", "bg_rgb"] Data.toItems s.window.background
  let charsPerSecond ← setting d ["reveal", "chars_per_sec"] Data.toReal s.reveal.charsPerSecond
  let shortPause ← setting d ["reveal", "pause_short_s"] Data.toReal s.reveal.shortPause
  let longPause ← setting d ["reveal", "pause_long_s"] Data.toReal s.reveal.longPause
  let ellipsisPause ← setting d ["reveal", "pause_ellipsis_s"] Data.toReal s.reveal.ellipsisPause
  let move ← setting d ["effects", "move_duration"] Data.toReal s.effects.move
  let fade ← setting d ["effects", "fade_duration"] Data.toReal s.effects.fade
  let logWaitsForAdvance ←
    setting d ["runtime", "log_waits_for_advance"] (fun _ v => .ok v.isTruthy)
      s.runtime.logWaitsForAdvance
  let steps ← setting d ["runtime", "max_steps_per_tick"] Data.toWhole s.runtime.maxStepsPerTick
  let playerNameVariable ←
    setting d ["runtime", "player_name_variable"] readText s.runtime.playerNameVariable
  let scripts ← setting d ["paths", "scripts"] readText s.paths.scripts
  let assets ← setting d ["paths", "assets"] readText s.paths.assets
  let chapter ← setting d ["start", "chapter"] readText s.start.chapter
  let act ← setting d ["start", "act"] readText s.start.act
  let bindings ← setting d ["variables"] readVariables s.bindings
  return {
    framesPerSecond
    logLevel := String.ofList (Text.toCapitals level.toList)
    window := { width, height, title, background }
    reveal := { charsPerSecond, shortPause, longPause, ellipsisPause }
    effects := { move, fade }
    runtime := { logWaitsForAdvance, maxStepsPerTick := max 1 steps, playerNameVariable }
    paths := { scripts, assets }
    start := { chapter, act }
    bindings }

/-- The settings in a file; without the file, the default ones. -/
def ofFile (files : FileTree) (path : Path) : Except SettingsError Settings :=
  match Yaml.readFile files path with
  | .ok d => ofData d
  | .error .noPath | .error (.unreadable .noEntry) | .error (.unreadable .notDirectory) => .ok {}
  | .error flaw => .error (.file flaw)

end Settings

end VisualNovel

import VisualNovel.CommandLine
import VisualNovel.Player.App

/-!
The program at a terminal. The files of the novel are named on the standard input, one path a
line; what the history records is printed line by line, as if the space bar were pressed in every
frame.
-/

namespace VisualNovel.Terminal

/-- The lines of a stream up to its end. -/
partial def readLines (stream : IO.FS.Stream) : IO (List String) := do
  let line ← stream.getLine
  if line.isEmpty then return [] else return line.trimAscii.toString :: (← readLines stream)

/-- The tree of the files at some paths. -/
def readFiles (paths : List String) : IO FileTree :=
  paths.foldlM
    (fun (tree : FileTree) (path : String) => do
      let bytes ← IO.FS.readBinFile path
      return tree.write (Path.ofString path) (.file bytes.toList))
    {}

/-- A line of the history as it is printed. -/
def line (e : HistoryEntry) : String :=
  match e.speaker with
  | some name => s!"{name}: {e.text}"
  | none => e.text

/-- A tenth of a second in which the space bar is pressed. -/
def turn : Frame := { milliseconds := 100, inputs := [.key .space] }

/-- Frame after frame, until the story is over or cannot go on. -/
partial def play (output : IO.FS.Stream) (app : App) : IO UInt32 := do
  let (outcome, next) := (App.frame turn).outcome app
  let story := next.player.performance.story
  let told := app.player.performance.story.history.length
  (story.history.entries.drop told).forM fun e => output.putStrLn (line e)
  match outcome, next.player.problem with
  | .error _, _ => do
    (← IO.getStderr).putStrLn "the novel cannot go on"
    return 1
  | .ok _, some problem => do
    (← IO.getStderr).putStrLn problem
    return 1
  | .ok _, none => if story.isHalted || !next.goesOn then return 0 else play output next

/-- What the arguments ask for. -/
def run (args : List String) : IO UInt32 := do
  match CommandLine.read args with
  | .error e => do
    (← IO.getStderr).putStrLn e.message
    return if e = .helpWanted then 0 else 2
  | .ok commandLine => do
    let files ← readFiles (← readLines (← IO.getStdin))
    match commandLine.settings files with
    | .error _ => do
      (← IO.getStderr).putStrLn s!"{commandLine.config} holds no settings"
      return 1
    | .ok settings =>
      match App.start settings files {} with
      | .error _ => do
        (← IO.getStderr).putStrLn "the novel cannot begin"
        return 1
      | .ok app => play (← IO.getStdout) app

end VisualNovel.Terminal

def main (args : List String) : IO UInt32 := VisualNovel.Terminal.run args

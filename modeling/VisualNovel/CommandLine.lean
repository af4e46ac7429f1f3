import VisualNovel.Settings.Reading

/-!
The command line: which settings file to read, and which script to begin with instead of the one
that the file names. A long option may be shortened as far as only one option begins so, and its
value is the next argument or follows an equals sign. Two dashes after an equals sign are no value:
an option with them is as if it were not there, except that the settings file cannot be left out so.
-/

namespace VisualNovel

/-- What the command line asks for. Without a settings file nothing can be played. -/
structure CommandLine where
  config : Option String := some "game/config/defaults.yaml"
  chapter : Option String := none
  act : Option String := none
  deriving Repr, DecidableEq

namespace CommandLine

/-- Why nothing is played. -/
inductive UsageError where
  | helpWanted
  | ambiguous (arg : String)
  | unexpected (arg : String)
  | noValue (arg : String)
  deriving Repr, DecidableEq

def UsageError.message : UsageError → String
  | .helpWanted => "usage: [-h] [--config CONFIG] [--chapter CHAPTER] [--act ACT]"
  | .ambiguous arg => s!"ambiguous option: {arg}"
  | .unexpected arg => s!"unrecognized arguments: {arg}"
  | .noValue arg => s!"argument {arg}: expected one argument"

inductive Switch where
  | config
  | chapter
  | act
  | help
  deriving Repr, DecidableEq

def switches : List (String × Switch) :=
  [("--config", .config), ("--chapter", .chapter), ("--act", .act), ("--help", .help),
    ("-h", .help)]

/-- What an argument is. An option may have what follows its equals sign. -/
inductive Word where
  | value
  | separator
  | option (switch : Switch) (attached : Option String)
  | ambiguous
  | unknown
  deriving Repr, DecidableEq

/-- The text without the line feed that it ends in. -/
def dropLastLineFeed (cs : List Char) : List Char :=
  if cs.getLast? == some '\n' then cs.dropLast else cs

/-- Whether a text is a minus and a number, with or without a point. A line feed at its end does
    not count. -/
def isNegativeNumber (cs : List Char) : Bool :=
  match dropLastLineFeed cs with
  | '-' :: body =>
    match Text.splitAtEach '.' body with
    | [whole] => !whole.isEmpty && whole.all Text.isDigit
    | [whole, fraction] =>
      whole.all Text.isDigit && !fraction.isEmpty && fraction.all Text.isDigit
    | _ => false
  | _ => false

/-- The options that an argument may mean by its beginning. -/
def shortenings (arg name : String) : List Switch :=
  (switches.filter fun (full, _) =>
    if arg.startsWith "--" then full.startsWith name else arg.startsWith full).map (·.2)

/-- What an argument is. -/
def classify (arg : String) : Word :=
  if !arg.startsWith "-" || arg == "-" then .value
  else if arg == "--" then .separator
  else
    let (name, attached) :=
      match Text.breakAt? '=' arg.toList with
      | some (name, value) => (String.ofList name, some (String.ofList value))
      | none => (arg, none)
    match switches.lookup arg, switches.lookup name with
    | some s, _ => .option s none
    | none, some s => .option s attached
    | none, none =>
      match shortenings arg name with
      | [s] => .option s attached
      | _ :: _ :: _ => .ambiguous
      | [] => if isNegativeNumber arg.toList || arg.toList.contains ' ' then .value else .unknown

/-- The value that follows an equals sign; two dashes are none. -/
def attachedValue (text : String) : Option String := if text == "--" then none else some text

def set (c : CommandLine) (s : Switch) (value : Option String) : CommandLine :=
  match s with
  | .config => { c with config := value }
  | .chapter => { c with chapter := value }
  | .act => { c with act := value }
  | .help => c

/-- The command line with further arguments. Every argument is looked at before any is used, so
    that an ambiguous one counts wherever it stands. -/
def readFrom (c : CommandLine) : List String → Except UsageError CommandLine
  | [] => .ok c
  | arg :: rest =>
    match classify arg with
    | .option .help _ => .error .helpWanted
    | .option s (some text) => readFrom (c.set s (attachedValue text)) rest
    | .option s none =>
      match rest with
      | value :: more =>
        if classify value = .value then readFrom (c.set s (some value)) more
        else .error (.noValue arg)
      | [] => .error (.noValue arg)
    | _ => .error (.unexpected arg)

/-- The command line that arguments make. -/
def read (args : List String) : Except UsageError CommandLine :=
  match args.find? fun arg => classify arg == .ambiguous with
  | some arg => .error (.ambiguous arg)
  | none => readFrom {} args

/-- An argument that is given and not empty. -/
def given (arg : Option String) (default : String) : String :=
  match arg with
  | some s => if s.isEmpty then default else s
  | none => default

/-- The settings of the file, with the script that the command line asks for. -/
def settings (c : CommandLine) (files : FileTree) : Except SettingsError Settings := do
  let some config := c.config | throw (.wrongKind "config")
  let s ← Settings.ofFile files (Path.ofString config)
  return { s with start := ⟨given c.chapter s.start.chapter, given c.act s.start.act⟩ }

end CommandLine

end VisualNovel

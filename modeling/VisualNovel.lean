import VisualNovel.Act
import VisualNovel.Calendar
import VisualNovel.Cast.Cast
import VisualNovel.Cast.Character
import VisualNovel.Cast.DefinitionError
import VisualNovel.Cast.Directory
import VisualNovel.Cast.SpriteSheet
import VisualNovel.CommandLine
import VisualNovel.Data
import VisualNovel.Drawing.Easel
import VisualNovel.Drawing.Font
import VisualNovel.Drawing.FontCache
import VisualNovel.Drawing.ImageStore
import VisualNovel.Drawing.Picture
import VisualNovel.Drawing.Rect
import VisualNovel.Drawing.Slices
import VisualNovel.Files.Path
import VisualNovel.Files.Tree
import VisualNovel.Main
import VisualNovel.Number.Binary64
import VisualNovel.Number.Fixed
import VisualNovel.Number.Numeral
import VisualNovel.Number.Shortest
import VisualNovel.Performance.Basic
import VisualNovel.Player.App
import VisualNovel.Player.Input
import VisualNovel.Player.Player
import VisualNovel.Player.SceneStack
import VisualNovel.Proofs.Act
import VisualNovel.Proofs.Cast.Characters
import VisualNovel.Proofs.Cast.Definitions
import VisualNovel.Proofs.Cast.Filling
import VisualNovel.Proofs.Cast.SpriteSheets
import VisualNovel.Proofs.Drawing.Easel
import VisualNovel.Proofs.Drawing.Frames
import VisualNovel.Proofs.Drawing.Images
import VisualNovel.Proofs.Drawing.KeptFonts
import VisualNovel.Proofs.Drawing.Loading
import VisualNovel.Proofs.Drawing.Slices
import VisualNovel.Proofs.Drawing.Wrapping
import VisualNovel.Proofs.Failing
import VisualNovel.Proofs.Number.Between
import VisualNovel.Proofs.Number.Bits
import VisualNovel.Proofs.Number.Bounded
import VisualNovel.Proofs.Number.Digits
import VisualNovel.Proofs.Number.Elapsing
import VisualNovel.Proofs.Number.Exact
import VisualNovel.Proofs.Number.Nearest
import VisualNovel.Proofs.Number.Parts
import VisualNovel.Proofs.Number.ReadBack
import VisualNovel.Proofs.Number.Remaining
import VisualNovel.Proofs.Number.Rounding
import VisualNovel.Proofs.Number.Unpacked
import VisualNovel.Proofs.Number.Whole
import VisualNovel.Proofs.Number.Written
import VisualNovel.Proofs.Performance.FadeOuts
import VisualNovel.Proofs.Performance.InStep
import VisualNovel.Proofs.Performance.Invariants
import VisualNovel.Proofs.Performance.Lasting
import VisualNovel.Proofs.Performance.Reentrancy
import VisualNovel.Proofs.Performance.Remember
import VisualNovel.Proofs.Performance.Signalling
import VisualNovel.Proofs.Performance.Timing
import VisualNovel.Proofs.Performance.Transcript
import VisualNovel.Proofs.Performance.Waiting
import VisualNovel.Proofs.Performance.Walking
import VisualNovel.Proofs.Player.Layers
import VisualNovel.Proofs.Player.Opening
import VisualNovel.Proofs.Player.Presses
import VisualNovel.Proofs.Screen.StageView
import VisualNovel.Proofs.Script.Accepting
import VisualNovel.Proofs.Script.Chunks
import VisualNovel.Proofs.Script.Compiling
import VisualNovel.Proofs.Script.Directives
import VisualNovel.Proofs.Script.Echo
import VisualNovel.Proofs.Script.Exponents
import VisualNovel.Proofs.Script.FirstMistake
import VisualNovel.Proofs.Script.Flaws
import VisualNovel.Proofs.Script.Grammar
import VisualNovel.Proofs.Script.Layout
import VisualNovel.Proofs.Script.Lines
import VisualNovel.Proofs.Script.Locating
import VisualNovel.Proofs.Script.Numerals
import VisualNovel.Proofs.Script.Offsets
import VisualNovel.Proofs.Script.OneLine
import VisualNovel.Proofs.Script.Outcome
import VisualNovel.Proofs.Script.Phrase
import VisualNovel.Proofs.Script.Pieces
import VisualNovel.Proofs.Script.Plain
import VisualNovel.Proofs.Script.Quoted
import VisualNovel.Proofs.Script.Reading
import VisualNovel.Proofs.Script.Refusing
import VisualNovel.Proofs.Script.Rereading
import VisualNovel.Proofs.Script.RoundTrip
import VisualNovel.Proofs.Script.Tidying
import VisualNovel.Proofs.Script.Tokenizing
import VisualNovel.Proofs.Script.Validation
import VisualNovel.Proofs.Script.WellFormed
import VisualNovel.Proofs.Script.Writing
import VisualNovel.Proofs.Stage.Animator
import VisualNovel.Proofs.Stage.Answering
import VisualNovel.Proofs.Stage.Appearing
import VisualNovel.Proofs.Stage.Cancelling
import VisualNovel.Proofs.Stage.Completing
import VisualNovel.Proofs.Stage.Costumes
import VisualNovel.Proofs.Stage.Effects
import VisualNovel.Proofs.Stage.FadeOuts
import VisualNovel.Proofs.Stage.Handling
import VisualNovel.Proofs.Stage.Keeping
import VisualNovel.Proofs.Stage.Pacing
import VisualNovel.Proofs.Stage.Places
import VisualNovel.Proofs.Stage.Rehearsing
import VisualNovel.Proofs.Stage.Reports
import VisualNovel.Proofs.Stage.Revealing
import VisualNovel.Proofs.Stage.Roster
import VisualNovel.Proofs.Stage.Still
import VisualNovel.Proofs.Stage.Superseding
import VisualNovel.Proofs.Story.Awaiting
import VisualNovel.Proofs.Story.Deliveries
import VisualNovel.Proofs.Story.Issues
import VisualNovel.Proofs.Story.Readers
import VisualNovel.Proofs.Story.Remember
import VisualNovel.Proofs.Story.Resting
import VisualNovel.Proofs.Story.Soundness
import VisualNovel.Proofs.Story.Step
import VisualNovel.Proofs.Story.Transcript
import VisualNovel.Proofs.Story.Walk
import VisualNovel.Proofs.Table
import VisualNovel.Proofs.Text.Lines
import VisualNovel.Proofs.Text.Names
import VisualNovel.Proofs.Text.Trimming
import VisualNovel.Screen.Backlog
import VisualNovel.Screen.Notice
import VisualNovel.Screen.StageView
import VisualNovel.Screen.Style
import VisualNovel.Script.Basic
import VisualNovel.Script.Compile
import VisualNovel.Script.Evaluation
import VisualNovel.Script.Expression
import VisualNovel.Script.Mistake
import VisualNovel.Script.Phrase
import VisualNovel.Script.Printer
import VisualNovel.Script.Quoted
import VisualNovel.Script.QuotedAt
import VisualNovel.Script.Repertoire
import VisualNovel.Script.Token
import VisualNovel.Script.Validation
import VisualNovel.Script.Vocabulary
import VisualNovel.Settings.Basic
import VisualNovel.Settings.Reading
import VisualNovel.Settings.Runtime
import VisualNovel.Stage.Animator
import VisualNovel.Stage.CueSheet
import VisualNovel.Stage.Reveal
import VisualNovel.Stage.Scalar
import VisualNovel.Stage.Stage
import VisualNovel.Stage.Tween
import VisualNovel.Stage.Typewriter
import VisualNovel.Story.Bus
import VisualNovel.Story.Command
import VisualNovel.Story.Cursor
import VisualNovel.Story.History
import VisualNovel.Story.Story
import VisualNovel.Story.Switchboard
import VisualNovel.Table
import VisualNovel.Text.CapitalRanges
import VisualNovel.Text.Capitals
import VisualNovel.Text.CharClass
import VisualNovel.Text.HiddenRanges
import VisualNovel.Text.Quotation
import VisualNovel.Text.Utf8
import VisualNovel.Text.WordRanges
import VisualNovel.Text.Words
import VisualNovel.Trail
import VisualNovel.Yaml.Document
import VisualNovel.Yaml.File
import VisualNovel.Yaml.Flaw
import VisualNovel.Yaml.Meaning
import VisualNovel.Yaml.Node
import VisualNovel.Yaml.Resolution
import VisualNovel.Yaml.Scalar
import VisualNovel.Yaml.Source
import VisualNovel.Yaml.Timestamp

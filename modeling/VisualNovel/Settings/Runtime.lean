/-!
How the story runs.
-/

namespace VisualNovel

/-- Whether the story waits at log entries, how many directives it runs at most between two frames,
    and which variable holds the player's name. -/
structure RuntimeSettings where
  logWaitsForAdvance : Bool := false
  maxStepsPerTick : Int := 1000
  playerNameVariable : String := "playername"
  deriving Repr, DecidableEq

end VisualNovel

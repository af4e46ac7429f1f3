import VisualNovel.Player.Player
import VisualNovel.Proofs.Cast.Definitions
import VisualNovel.Proofs.Performance.Reentrancy
import VisualNovel.Proofs.Script.Outcome

/-!
How the player comes on. What is wrong with the definitions or with the first script is told on the
screen, and if nothing is wrong, the story stands ready at the beginning of that script. Only a
failure that has no message keeps the player from coming on at all.
-/

namespace VisualNovel

open Act

namespace Player

variable {settings : Settings} {files : FileTree} {images : ImageStore}

/-- A player with a problem enters with it. -/
theorem outcome_enter_of_problem {p : Player} (hproblem : p.problem.isSome) :
    enter.outcome p = (.ok (), { p with layers := p.layers.push .novel }) := by
  rw [enter, outcome_bind_of_ok (outcome_change _ _), outcome_bind_of_ok (outcome_get _)]
  dsimp only
  rw [if_pos hproblem]
  rfl

/-- A player without a problem starts the first script as it enters. -/
theorem outcome_enter {p : Player} (hproblem : p.problem = none) :
    enter.outcome p =
      match (Play.cue (.start p.settings.start)).outcome p.performance with
      | (.ok _, performance) =>
        (.ok (), { p with layers := p.layers.push .novel, performance })
      | (.error e, performance) =>
        match e.loadMessage? with
        | some message => (.ok (), { p with
            layers := p.layers.push .novel
            performance
            problem := some ("Could not load " ++ p.settings.start.toString ++ "\n\n" ++ message) })
        | none => (.error (.play e), { p with layers := p.layers.push .novel, performance }) := by
  rw [enter, outcome_bind_of_ok (outcome_change _ _), outcome_bind_of_ok (outcome_get _)]
  dsimp only
  rw [if_neg (by simp [hproblem]), outcome_bind_of_ok (outcome_change _ _)]
  cases (Play.cue (.start p.settings.start)).outcome p.performance with
  | mk r performance =>
    cases r with
    | ok answer => rfl
    | error e =>
      dsimp only
      cases e.loadMessage? <;> rfl

end Player

end VisualNovel

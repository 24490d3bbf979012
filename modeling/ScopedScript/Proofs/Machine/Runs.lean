import Mathlib.Logic.Function.Iterate
import ScopedScript.Machine.Run
namespace ScopedScript

/-!
# Runs as repeated steps

A run with fuel is the same as so many steps, because a finished run stays as it is.  So a run that has
finished once has the same end under every larger fuel.
-/

namespace Config

variable {config : Config} {n m : Nat}

theorem iterate_step_of_isDone (finished : config.isDone = true) (n : Nat) :
    step^[n] config = config := by
  induction n with
  | zero => rfl
  | succ n inductionHypothesis =>
      rw [Function.iterate_succ_apply, step_of_isDone finished]
      exact inductionHypothesis

theorem run_eq_iterate (n : Nat) (config : Config) : run n config = step^[n] config := by
  induction n generalizing config with
  | zero => rfl
  | succ n inductionHypothesis =>
      rw [run]
      split
      · rename_i finished
        exact (iterate_step_of_isDone finished (n + 1)).symm
      · rw [Function.iterate_succ_apply]
        exact inductionHypothesis config.step

/-- Once a run has finished, more steps change nothing. -/
theorem iterate_step_eq_of_le (finished : (step^[n] config).isDone = true) (later : n ≤ m) :
    step^[m] config = step^[n] config := by
  rcases Nat.exists_eq_add_of_le' later with ⟨more, same⟩
  rw [same, Function.iterate_add_apply, iterate_step_of_isDone finished]

/-- Where statements still run, no ending is reported. -/
theorem flowEnding_of_running {config : Config} (running : config.isDone = false) :
    config.flowEnding = .unfinished := by
  rcases config with ⟨state, focus⟩
  cases focus with
  | flow flow stack =>
      cases stack with
      | bottom => cases running
      | _ => rfl
  | unwindFlow failure stack =>
      cases stack with
      | bottom => cases running
      | _ => rfl
  | _ => rfl

end Config

end ScopedScript

import Mathlib
import ScopedScript.Proofs.Lexing.Coverage
import ScopedScript.Proofs.Scoping.Sessions
import ScopedScript.Proofs.Termination.Evaluation
namespace ScopedScript

/-!
# Units without loops end

Where active calls are limited, a session whose units are all free of loops comes to the end of each of
them: a unit is rejected, finishes or fails.  The evaluator with cells ends, as the bodies of all functions
of the session are within one bound when a unit begins, and the machine follows it.
-/

theorem UnitResult.rejected_ne_unfinished (error : StaticError) : rejected error ≠ unfinished := by
  intro impossible
  cases impossible

namespace Cells

/-- The functions of a new session are builtins. -/
theorem Session.isTame_start {host : Host} {limit : Nat} (limited : host.callLimit = some limit) (sink : Sink)
    (builtins : List Builtin) : (Session.start host sink builtins).store.IsTame limit 0 := by
  have fresh : Store.IsTame limit 0 { host, sink } := ⟨limited, nofun, nofun⟩
  unfold Session.start
  generalize ({ host, sink } : Store) = store at fresh
  induction builtins generalizing store with
  | nil => exact fresh
  | cons first rest inductionHypothesis =>
      refine inductionHypothesis _ ?_
      have tameValue : (Value.function store.identity (.builtin first)).IsTame 0 := trivial
      have bound := fresh.setGlobal first.name tameValue
      exact ⟨bound.limited, bound.globals, bound.cells⟩

/-- A program that has ended gives the unit a result. -/
theorem Store.concluded_ne_unfinished {store : Store} {outcome : Outcome Flow} (ended : outcome ≠ .unfinished) :
    store.concluded outcome ≠ .unfinished := by
  intro unfinished
  cases outcome with
  | done flow =>
      rw [Store.concluded] at unfinished
      split at unfinished <;> cases unfinished
  | failed error => cases unfinished
  | unfinished => exact ended rfl

variable {session : Session} {limit bound : Nat} {source : String}

/-- A unit without loops ends, and leaves functions that are free of loops as well. -/
theorem Session.run_ends (tame : session.store.IsTame limit bound) (loopFree : isLoopFreeUnit source = true) :
    ∃ fuel larger, (session.run fuel source).2 ≠ .unfinished ∧
      (session.run fuel source).1.store.IsTame limit larger := by
  unfold run
  cases read : readProgram source session.next with
  | error error => exact ⟨0, bound, UnitResult.rejected_ne_unfinished error, tame⟩
  | ok result =>
      rcases result with ⟨program, next⟩
      dsimp only
      cases resolve program with
      | error error => exact ⟨0, bound, UnitResult.rejected_ne_unfinished (.scope error), tame⟩
      | ok references =>
          let larger := max bound (sizeOf program)
          have ended := executeAll_ends (areLoopFree_of_readProgram loopFree read)
            (Nat.le_max_right bound (sizeOf program)) (Nat.le_refl (larger + limit * larger)) .topLevel
            session.store (tame.mono (Nat.le_max_left bound (sizeOf program)))
          refine ⟨larger + limit * larger, larger, ?_, ended.store_isTame⟩
          exact Store.concluded_ne_unfinished ended.outcome_ne_unfinished

end Cells

theorem History.Ended.cons {sink : Sink} {result : UnitResult} {history : History}
    (allEnded : history.Ended) (ended : result ≠ .unfinished) : Ended ((sink, result) :: history) :=
  List.forall_mem_cons.mpr ⟨ended, allEnded⟩

/-- A history that is the same with any number of steps from some number on, and in which all units have
ended. -/
def Session.ComesToEnd (session : Session) (units : List String) (history : History) : Prop :=
  history.length = units.length ∧ history.Ended ∧
    ∃ enough, ∀ steps ≥ enough, session.history steps units = history

theorem Session.Matches.comesToEnd {session : Session} {reference : Cells.Session} {units : List String}
    {limit bound : Nat} (matched : session.Matches reference) (tame : reference.store.IsTame limit bound)
    (loopFree : ∀ source ∈ units, isLoopFreeUnit source = true) :
    ∃ history, session.ComesToEnd units history := by
  induction units generalizing session reference bound with
  | nil => exact ⟨[], rfl, fun _ member => absurd member List.not_mem_nil, 0, fun _ _ => rfl⟩
  | cons source rest inductionHypothesis =>
      rcases List.forall_mem_cons.mp loopFree with ⟨first, others⟩
      rcases Cells.Session.run_ends tame first with ⟨fuel, larger, ended, tameAfter⟩
      rcases matched.run_follows fuel source with
        ⟨n, after, matchedAfter, _, runs⟩ | ⟨unfinished, _⟩
      · rcases inductionHypothesis matchedAfter tameAfter others with
          ⟨history, length, allEnded, enough, same⟩
        refine ⟨(after.state.sink, (reference.run fuel source).2) :: history, ?_, ?_, max n enough, ?_⟩
        · exact congrArg (· + 1) length
        · exact allEnded.cons ended
        · intro steps most
          have ran := runs steps (Nat.le_trans (Nat.le_max_left n enough) most)
          have endedToo : (session.run steps source).2 ≠ .unfinished := by
            rw [ran]
            exact ended
          unfold Session.history at same ⊢
          rw [History.of_ended endedToo, ran, same steps (Nat.le_trans (Nat.le_max_right n enough) most)]
      · exact absurd unfinished ended

/-- Without loops everything ends.  Where active calls are limited, every sequence of units that are free of
loops has a history in which each unit has ended, whatever its functions call. -/
theorem loopFree_units_end {host : Host} {limit : Nat} {units : List String}
    (limited : host.callLimit = some limit) (loopFree : ∀ source ∈ units, isLoopFreeUnit source = true)
    (sink : Sink) (builtins : List Builtin) :
    ∃ history, (Session.start host sink builtins).ComesToEnd units history :=
  (Session.matches_start host sink builtins).comesToEnd (Cells.Session.isTame_start limited sink builtins)
    loopFree

/-- A function that would call itself for ever, through a variable that a later unit sets. -/
theorem loopFree_units_end_selfCall :
    let units := [
      "var g; fun f() \x7b print g; g(); \x7d",
      "g = f; g();"]
    ({} : Host).callLimit = some 10000 ∧ (∀ source ∈ units, isLoopFreeUnit source = true) ∧
      ∃ history, (Session.start {} {} [.clock]).ComesToEnd units history := by
  intro units
  have limited : ({} : Host).callLimit = some 10000 := rfl
  have loopFree : ∀ source ∈ units, isLoopFreeUnit source = true := by
    unfold units
    simp only [List.forall_mem_cons]
    refine ⟨?_, ?_, nofun⟩ <;> cbv
  exact ⟨limited, loopFree, loopFree_units_end limited loopFree {} [.clock]⟩

end ScopedScript

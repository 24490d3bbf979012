import Mathlib
import ScopedScript.Proofs.Machine.Returns
import ScopedScript.Proofs.Sessions.ProgramNames
import ScopedScript.Proofs.Sessions.RootedScopes
namespace ScopedScript

/-!
# Nothing leaks into the global scope

In whatever session a unit is run, it adds to the global names those that its own statements of the top level
declare, and each of them when the statement has completed.  Nothing that is declared inside of blocks, loops
and functions becomes global, and no assignment adds a name, whatever closures it goes through.
-/

/-- Statements in order have completed up to the first one that fails. -/
theorem State.InOrder.split {state last : State} {program : List Stmt} {ending : Ending Flow}
    (inOrder : state.InOrder program last ending) :
    ∃ completed rest middle, program = completed ++ rest ∧ state.InOrder completed middle (.done .normal) ∧
      ((rest = [] ∧ last = middle ∧ ending = .done .normal) ∨
        ∃ first others fuel failure, rest = first :: others ∧ ending = .failed failure ∧
          middle.execute fuel first = (last, .failed failure)) := by
  induction inOrder with
  | nil state => exact ⟨[], [], state, rfl, .nil state, .inl ⟨rfl, rfl, rfl⟩⟩
  | @cons state middle last first others ending fuel completes inOrder inductionHypothesis =>
      rcases inductionHypothesis with ⟨completed, rest, stopped, parts, inOrderCompleted, ends⟩
      refine ⟨first :: completed, rest, stopped, ?_, .cons fuel completes inOrderCompleted, ends⟩
      rw [parts]
      rfl
  | @fails state last first others failure fuel failed =>
      exact ⟨[], first :: others, state, rfl, .nil state, .inr ⟨first, others, fuel, failure, rfl, rfl, failed⟩⟩

namespace Session

variable {session after : Session} {source : String} {program : List Stmt} {fuel : Nat}

theorem ready_of_accepted (reached : session.Reached) (accepted : session.accept source = (after, .ok program)) :
    ∃ known, after.state.Ready known program := by
  rcases reached.exists_matches with ⟨reference, matched⟩
  rcases matched.accept_follows source with
    ⟨error, refusedAfter, _, refused, _, _⟩ | ⟨same, sameAfter, acceptedToo, matchedAfter, bound, _⟩
  · rw [refused] at accepted
    cases accepted
  · rw [acceptedToo] at accepted
    cases accepted
    exact ⟨_, matchedAfter.scope, matchedAfter.exists_global, fun _ _ isKnown => isKnown.2, bound,
      fun n => (matchedAfter.launch_sound bound n).accessesBound⟩

theorem hasGlobal_of_accepted (accepted : session.accept source = (after, .ok program)) (name : String) :
    after.state.hasGlobal name = session.state.hasGlobal name := by
  unfold State.hasGlobal
  rw [heap_of_accepted accepted]

/-- A unit that has ended has executed its statements in order. -/
theorem inOrder_of_ended (accepted : session.accept source = (after, .ok program))
    (ended : (session.run fuel source).2 ≠ .unfinished) :
    ∃ ending, after.state.InOrder program (session.run fuel source).1.state ending ∧
      (session.run fuel source).2 = .ofEnding ((session.run fuel source).1.state.flushed ending) := by
  rcases accept_ok_iff.mp accepted with ⟨_, _, _, resolved, _⟩
  rw [run_of_accepted accepted] at ended ⊢
  refine ⟨_, State.inOrder_of_launch (fun unfinished => ended ?_) (fun result returned => ?_), rfl⟩
  · rw [conclude, unfinished]
    rfl
  · cases Config.flow_normal_of_resolved resolved (Config.flowEnding_eq_done returned)

/-- The names after a unit that has ended, and the statements that they come from. -/
theorem exists_completed_of_ended (reached : session.Reached)
    (accepted : session.accept source = (after, .ok program))
    (ended : (session.run fuel source).2 ≠ .unfinished) :
    ∃ completed rest middle, program = completed ++ rest ∧
      after.state.InOrder completed middle (.done .normal) ∧
      ((rest = [] ∧ (session.run fuel source).1.state = middle) ∨
        ∃ first others more failure, rest = first :: others ∧ (session.run fuel source).2 = .failed failure ∧
          middle.execute more first = ((session.run fuel source).1.state, .failed failure)) ∧
      ∀ name, (session.run fuel source).1.state.hasGlobal name = true ↔
        session.state.hasGlobal name = true ∨ name ∈ Stmt.declaredNames completed := by
  rcases ready_of_accepted reached accepted with ⟨known, ready⟩
  rcases inOrder_of_ended accepted ended with ⟨ending, inOrder, result⟩
  rcases inOrder.split with ⟨completed, rest, middle, rfl, inOrderCompleted, ends⟩
  rcases ready.after_inOrder inOrderCompleted with ⟨readyRest, added⟩
  refine ⟨completed, rest, middle, rfl, inOrderCompleted, ?_, fun name => ?_⟩
  · rcases ends with ⟨none, stopped, -⟩ | ⟨first, others, more, failure, rfl, rfl, failed⟩
    · exact .inl ⟨none, stopped⟩
    · exact .inr ⟨first, others, more, failure, rfl, result, failed⟩
  · rw [← hasGlobal_of_accepted accepted, ← added name]
    rcases ends with ⟨-, stopped, -⟩ | ⟨first, others, more, failure, rfl, rfl, failed⟩
    · rw [stopped]
    · rw [State.execute_eq, Prod.mk.injEq] at failed
      rw [← failed.1, readyRest.names_first more name, or_iff_left]
      rintro ⟨normal, -⟩
      rw [Config.flowEnding, normal] at failed
      cases failed.2

end Session

open Config (step) in
/-- Nothing leaks into the global scope.  At every step of a unit the global names are those from before and
those that its completed statements declare; when it has finished, those that any of its statements declares.
A unit that fails has completed its statements up to the one that fails, or all of them. -/
theorem globals_exact {session after : Session} {source : String} {program : List Stmt}
    (reached : session.Reached) (accepted : session.accept source = (after, .ok program)) :
    (∀ n, ∃ completed rest middle, after.state.HasCompleted program n completed rest middle ∧
      ∀ name, (step^[n] (after.state.launch program)).state.hasGlobal name ↔
        session.state.hasGlobal name ∨ name ∈ Stmt.declaredNames completed) ∧
    (∀ fuel, (session.run fuel source).2 = .finished →
      ∀ name, (session.run fuel source).1.state.hasGlobal name ↔
        session.state.hasGlobal name ∨ name ∈ Stmt.declaredNames program) ∧
    ∀ fuel failure, (session.run fuel source).2 = .failed failure → ∃ completed rest middle,
      program = completed ++ rest ∧ after.state.InOrder completed middle (.done .normal) ∧
      ((rest = [] ∧ (session.run fuel source).1.state = middle) ∨ ∃ first others more, rest = first :: others ∧
        middle.execute more first = ((session.run fuel source).1.state, .failed failure)) ∧
      ∀ name, (session.run fuel source).1.state.hasGlobal name ↔
        session.state.hasGlobal name ∨ name ∈ Stmt.declaredNames completed := by
  refine ⟨fun n => ?_, fun fuel finished => ?_, fun fuel failure failed => ?_⟩
  · rcases Session.ready_of_accepted reached accepted with ⟨known, ready⟩
    rcases ready.exists_completed n with ⟨completed, rest, middle, hasCompleted, added⟩
    refine ⟨completed, rest, middle, hasCompleted, fun name => ?_⟩
    rw [added name, Session.hasGlobal_of_accepted accepted]
  · rcases Session.exists_completed_of_ended reached accepted (by rw [finished]; intro same; cases same) with
      ⟨completed, rest, middle, parts, -, ⟨rfl, -⟩ | ⟨_, _, _, failure, -, failed, -⟩, added⟩
    · rw [parts, List.append_nil]
      exact added
    · rw [finished] at failed
      cases failed
  · rcases Session.exists_completed_of_ended reached accepted (by rw [failed]; intro same; cases same) with
      ⟨completed, rest, middle, parts, inOrder, ends, added⟩
    refine ⟨completed, rest, middle, parts, inOrder, ?_, added⟩
    refine ends.imp id ?_
    rintro ⟨first, others, more, other, behind, failedToo, stops⟩
    rw [failed] at failedToo
    cases failedToo
    exact ⟨first, others, more, behind, stops⟩

/-- A unit that fails in a call, after a closure has assigned to a global name and before the last declaration
is reached. -/
theorem globals_exact_failedCall :
    let session := Session.start {} {} []
    let unit := "var a; fun f(b) \x7b var c; a = b; d = c; \x7d f(a); var d;"
    let program : List Stmt := [
      .declare ⟨"a", 1⟩ none,
      .function ⟨"f", 1⟩ [⟨"b", 1⟩] [
        .declare ⟨"c", 1⟩ none,
        .expression (.assign 2 ⟨"a", 1⟩ (.variable 1 ⟨"b", 1⟩)),
        .expression (.assign 5 ⟨"d", 1⟩ (.variable 4 ⟨"c", 1⟩))],
      .expression (.call (.variable 6 ⟨"f", 1⟩) 1 [.variable 7 ⟨"a", 1⟩]),
      .declare ⟨"d", 1⟩ none]
    let after := (session.accept unit).1
    let failure := Failure.runtime ⟨.undefinedVariable "d", 1⟩
    session.Reached ∧ session.accept unit = (after, .ok program) ∧ (session.run 60 unit).2 = .failed failure ∧
      ((session.run 60 unit).1.state.hasGlobal "f" = true ∧
        (session.run 60 unit).1.state.hasGlobal "d" = false) ∧
      ∃ completed rest middle, program = completed ++ rest ∧
        after.state.InOrder completed middle (.done .normal) ∧
        ∀ name, (session.run 60 unit).1.state.hasGlobal name ↔
          session.state.hasGlobal name ∨ name ∈ Stmt.declaredNames completed := by
  intro session unit program after failure
  have reached : session.Reached := .start {} {} []
  have accepted : session.accept unit = (after, .ok program) := by
    have read : (session.accept unit).2 = .ok program := by
      unfold session unit program
      simp only [Session.accept, Session.read, readProgram, tokenize_eq]
      cbv
    exact Prod.ext rfl read
  have failed : (session.run 60 unit).2 = .failed failure := by
    unfold session unit failure
    simp only [Session.run, Session.accept, Session.read, readProgram, tokenize_eq]
    cbv
  have names : (session.run 60 unit).1.state.hasGlobal "f" = true ∧
      (session.run 60 unit).1.state.hasGlobal "d" = false := by
    unfold session unit
    simp only [Session.run, Session.accept, Session.read, readProgram, tokenize_eq]
    constructor <;> cbv
  rcases globals_exact reached accepted with ⟨-, -, whenFailed⟩
  rcases whenFailed 60 failure failed with ⟨completed, rest, middle, parts, inOrder, -, added⟩
  exact ⟨reached, accepted, failed, names, completed, rest, middle, parts, inOrder, added⟩

end ScopedScript

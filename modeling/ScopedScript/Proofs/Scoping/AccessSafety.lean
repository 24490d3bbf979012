import Mathlib
import ScopedScript.Proofs.Lexing.Coverage
import ScopedScript.Proofs.Scoping.Sessions
namespace ScopedScript

/-!
# Recorded distances never lead astray

The scope analysis and the step machine never disagree.  In every session, whatever its units have been
and however they have ended, a read by distance finds its variable bound, and so does a write, unless it
stands in the initializer of that very variable.  So no defect ever comes to light.
-/

namespace Session

/-- What a session can have become: some units have been run in it, and each of them has ended. -/
inductive Reached : Session → Prop where
  | start (host : Host) (sink : Sink) (builtins : List Builtin) : Reached (start host sink builtins)
  | run {session : Session} (reached : Reached session) (fuel : Nat) (source : String)
      (ended : (session.run fuel source).2 ≠ .unfinished) : Reached (session.run fuel source).1

variable {session : Session}

/-- Every session that can be reached has a counterpart that can. -/
theorem Reached.exists_matches (reached : session.Reached) :
    ∃ reference, session.Matches reference := by
  induction reached with
  | start host sink builtins => exact ⟨_, matches_start host sink builtins⟩
  | @run session _ fuel source ended inductionHypothesis =>
      rcases inductionHypothesis with ⟨reference, matched⟩
      rcases matched.run_follows fuel source with
        ⟨n, after, matchedAfter, _, runs⟩ | ⟨_, m, least, running, _⟩
      · refine ⟨(reference.run fuel source).1, ?_⟩
        have same := run_eq_of_le ended (Nat.le_max_left fuel n)
        rw [runs _ (Nat.le_max_right fuel n)] at same
        rw [← same]
        exact matchedAfter
      · exact absurd (run_unfinished_of_le running least) ended

/-- However a unit ends, it does not end with a defect. -/
theorem conclude_ne_defect {config : Config} (notDefective : config.isDefective = false)
    (defect : ScopeDefect) : (session.conclude config).2 ≠ .failed (.defect defect) := by
  rcases config with ⟨state, focus⟩
  cases focus with
  | flow flow stack =>
      cases stack with
      | bottom =>
          change UnitResult.ofEnding (state.flushed (.done flow)) ≠ _
          rw [State.flushed]
          intro failed
          split at failed <;> cases failed
      | _ =>
          intro failed
          cases failed
  | unwindFlow failure stack =>
      cases stack with
      | bottom =>
          cases failure with
          | runtime error =>
              intro failed
              cases failed
          | defect _ => cases notDefective
      | _ =>
          intro failed
          cases failed
  | _ =>
      intro failed
      cases failed

/-- In whatever session a unit is run, all accesses by distance fit the scopes at every step, and no
unit ends with a defect. -/
theorem accesses_fit (reached : session.Reached) (source : String) :
    (∀ program after, session.accept source = (after, .ok program) →
      ∀ n, (Config.run n (after.state.launch program)).AccessesBound ∧
        (Config.run n (after.state.launch program)).isDefective = false) ∧
    ∀ fuel defect, (session.run fuel source).2 ≠ .failed (.defect defect) := by
  rcases reached.exists_matches with ⟨reference, matched⟩
  rcases matched.accept_follows source with
    ⟨error, after, _, refused, _, _⟩ | ⟨program, after, accepted, matchedAfter, bound, _⟩
  · refine ⟨?_, ?_⟩
    · intro program after accepted
      rw [refused] at accepted
      cases accepted
    · intro fuel defect
      rw [run_of_rejected refused]
      intro failed
      cases failed
  · have sound := matchedAfter.launch_sound bound
    refine ⟨?_, ?_⟩
    · intro another afterToo acceptedToo n
      rw [accepted] at acceptedToo
      cases acceptedToo
      rw [Config.run_eq_iterate]
      exact ⟨(sound n).accessesBound, (sound n).notDefective⟩
    · intro fuel defect
      rw [run_of_accepted accepted]
      exact conclude_ne_defect (sound fuel).notDefective defect

/-- A function of a unit that failed half-way is called in the next one. -/
theorem accesses_fit_afterFailure :
    let session := ((start {} {} []).run 60
      "fun f() \x7b var a = \"x\"; fun g() \x7b return a; \x7d return g; \x7d var g = f(); nil();").1
    let after := (session.accept "print g();").1
    session.Reached ∧
      session.accept "print g();" = (after, .ok [.print 1 [.call (.variable 3 ⟨"g", 1⟩) 1 []]]) ∧
      (∀ n, (Config.run n (after.state.launch
          [.print 1 [.call (.variable 3 ⟨"g", 1⟩) 1 []]])).AccessesBound) ∧
      ∀ fuel defect, (session.run fuel "print g();").2 ≠ .failed (.defect defect) := by
  intro session after
  have failed : ((start {} {} []).run 60
      "fun f() \x7b var a = \"x\"; fun g() \x7b return a; \x7d return g; \x7d var g = f(); nil();").2 =
        .failed (.runtime ⟨.notCallable, 1⟩) := by
    simp only [Session.run, Session.accept, Session.read, readProgram, tokenize_eq]
    cbv
  have reached : session.Reached := by
    refine .run (.start {} {} []) 60 _ ?_
    rw [failed]
    intro impossible
    cases impossible
  have accepted : session.accept "print g();" =
      (after, .ok [.print 1 [.call (.variable 3 ⟨"g", 1⟩) 1 []]]) := by
    have read : (session.accept "print g();").2 =
        .ok [.print 1 [.call (.variable 3 ⟨"g", 1⟩) 1 []]] := by
      unfold session
      simp only [Session.run, Session.accept, Session.read, readProgram, tokenize_eq]
      cbv
    exact Prod.ext rfl read
  rcases accesses_fit reached "print g();" with ⟨fits, noDefect⟩
  exact ⟨reached, accepted, fun n => (fits _ after accepted n).1, noDefect⟩

end Session

end ScopedScript

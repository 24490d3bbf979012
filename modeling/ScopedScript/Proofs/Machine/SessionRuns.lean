import ScopedScript.Proofs.Machine.Output
import ScopedScript.Session
namespace ScopedScript

/-!
# Units with more and with less fuel

A unit that has ended is not changed by more fuel, and one that has not ended has printed at least as
much when it gets more.  What became of a unit says where its run has stopped.
-/

namespace Session

variable {session after : Session} {source : String} {program : List Stmt} {n m : Nat}

theorem run_of_rejected {error : StaticError} (refused : session.accept source = (after, .error error))
    (fuel : Nat) : session.run fuel source = (after, .rejected error) := by
  rw [run, refused]

theorem run_of_accepted (accepted : session.accept source = (after, .ok program)) (fuel : Nat) :
    session.run fuel source = after.conclude (Config.step^[fuel] (after.state.launch program)) := by
  rw [run, accepted]
  change after.conclude (Config.run fuel _) = _
  rw [Config.run_eq_iterate]

/-- While the machine is running, the unit has not ended. -/
theorem conclude_of_running {config : Config} (running : config.isDone = false) :
    (session.conclude config).2 = .unfinished := by
  rw [conclude, Config.flowEnding_of_running running]
  rfl

theorem isDone_of_concluded {config : Config} (ended : (session.conclude config).2 ≠ .unfinished) :
    config.isDone = true := by
  by_contra running
  rw [Bool.not_eq_true] at running
  exact ended (conclude_of_running running)

/-- A unit that has finished has come to the end of its statements. -/
theorem focus_of_finished {config : Config} (finished : (session.conclude config).2 = .finished) :
    ∃ flow, config.focus = .flow flow .bottom := by
  rcases config with ⟨state, focus⟩
  cases focus with
  | flow flow below =>
      cases below with
      | bottom => exact ⟨flow, rfl⟩
      | _ => cases finished
  | unwindFlow failure below => cases below <;> cases finished
  | _ => cases finished

/-- Where the sink can be flushed, a unit that has failed did so itself. -/
theorem focus_of_failed {config : Config} {failure : Failure}
    (flushes : config.state.sink.flushFails = false)
    (failed : (session.conclude config).2 = .failed failure) :
    config.focus = .unwindFlow failure .bottom := by
  rcases config with ⟨state, focus⟩
  cases focus with
  | flow flow below =>
      cases below with
      | bottom =>
          change UnitResult.ofEnding (if state.sink.flushFails then _ else _) = _ at failed
          rw [if_neg (by rw [flushes]; nofun)] at failed
          cases failed
      | _ => cases failed
  | unwindFlow other below =>
      cases below with
      | bottom =>
          cases failed
          rfl
      | _ => cases failed
  | _ => cases failed

/-- A failure that has come to the bottom is the end of its unit. -/
theorem run_of_unwound (accepted : session.accept source = (after, .ok program)) {state : State}
    {failure : Failure}
    (unwound : Config.step^[n] (after.state.launch program) = ⟨state, .unwindFlow failure .bottom⟩) :
    ∀ fuel ≥ n, session.run fuel source = (⟨state, after.next⟩, .failed failure) := by
  intro fuel later
  have done : (Config.step^[n] (after.state.launch program)).isDone = true := by
    rw [unwound]
    rfl
  rw [run_of_accepted accepted, Config.iterate_step_eq_of_le done later, unwound]
  rfl

/-- A unit that has ended is the same with more fuel. -/
theorem run_eq_of_le (ended : (session.run n source).2 ≠ .unfinished) (later : n ≤ m) :
    session.run m source = session.run n source := by
  rcases read : session.accept source with ⟨after, error | program⟩
  · rw [run_of_rejected read, run_of_rejected read]
  · rw [run_of_accepted read] at ended
    rw [run_of_accepted read, run_of_accepted read,
      Config.iterate_step_eq_of_le (isDone_of_concluded ended) later]

/-- With more fuel at least as much is printed. -/
theorem precedes_run (session : Session) (source : String) (later : n ≤ m) :
    (session.run n source).1.state.sink.Precedes (session.run m source).1.state.sink := by
  rcases read : session.accept source with ⟨after, error | program⟩
  · rw [run_of_rejected read, run_of_rejected read]
    exact .refl _
  · rw [run_of_accepted read, run_of_accepted read]
    exact Config.precedes_iterate_step _ later

/-- A unit that has not ended had not ended with less fuel. -/
theorem run_unfinished_of_le (running : (session.run m source).2 = .unfinished) (later : n ≤ m) :
    (session.run n source).2 = .unfinished := by
  by_contra ended
  rw [run_eq_of_le ended later] at running
  exact ended running

end Session

end ScopedScript

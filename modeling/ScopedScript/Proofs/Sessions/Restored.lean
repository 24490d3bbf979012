import Mathlib
import ScopedScript.Proofs.Machine.Locations
import ScopedScript.Proofs.Scoping.AccessSafety
import ScopedScript.Proofs.Sessions.Lives
namespace ScopedScript

/-!
# The location after an execution

Whatever is evaluated or executed, on its own or in the middle of something else, and however it ends: the
current scope and the number of active calls are the same as before.  So every unit of a session begins at the
top level with no call active, also when the one before has failed deep inside of blocks, loops and calls.
-/

namespace Config

variable {config : Config} {waiting : Waiting} {n : Nat}

/-- What was asked for from outside and has ended goes on with nothing, so it stays in its location. -/
theorem location_of_hasEnded (config : Config) (begins : config.focus.waiting = waiting)
    (ended : (step^[n] config).HasEnded waiting)
    (outside : ∀ {config : Config}, config.HasEnded waiting → config.isDone = true) :
    (step^[n] config).state.location = config.state.location := by
  rcases ended.exists_endsAt with ⟨first, least, endsAt⟩
  rw [iterate_step_eq_of_le (outside endsAt.1) least]
  exact endsAt.location_eq begins

theorem isDone_of_value_hasEnded {config : Config} (ended : config.HasEnded (.value .bottom)) :
    config.isDone = true := by
  rcases ended.value_or_unwindValue with ⟨result, same⟩ | ⟨failure, same⟩ <;> rw [isDone, same]

theorem isDone_of_flow_hasEnded {config : Config} (ended : config.HasEnded (.flow .bottom)) :
    config.isDone = true := by
  rcases ended.flow_or_unwindFlow with ⟨flow, same⟩ | ⟨failure, same⟩ <;> rw [isDone, same]

/-- What is busy has not ended before. -/
theorem running_of_busy {config : Config} {n : Nat} (busy : (step^[n] config).isDone = false) :
    ∀ earlier ≤ n, ¬ (step^[earlier] config).HasEnded (.flow .bottom) := by
  intro earlier before ended
  have done := isDone_of_flow_hasEnded ended
  rw [iterate_step_eq_of_le done before, done] at busy
  cases busy

theorem hasEnded_of_valueEnding {config : Config} (ended : config.valueEnding ≠ .unfinished) :
    config.HasEnded (.value .bottom) := by
  rcases config with ⟨state, focus⟩
  cases focus with
  | value value stack | unwindValue failure stack =>
      cases stack with
      | bottom => exact ⟨rfl, rfl⟩
      | _ => exact absurd rfl ended
  | _ => exact absurd rfl ended

theorem hasEnded_of_flowEnding {config : Config} (ended : config.flowEnding ≠ .unfinished) :
    config.HasEnded (.flow .bottom) := by
  rcases config with ⟨state, focus⟩
  cases focus with
  | flow flow below | unwindFlow failure below =>
      cases below with
      | bottom => exact ⟨rfl, rfl⟩
      | _ => exact absurd rfl ended
  | _ => exact absurd rfl ended

end Config

namespace State

variable {state : State} {fuel : Nat}

/-- An expression on its own. -/
theorem location_evaluate {e : Expr} (ended : (state.evaluate fuel e).2 ≠ .unfinished) :
    (state.evaluate fuel e).1.location = state.location := by
  unfold evaluate at ended ⊢
  rw [Config.run_eq_iterate] at ended ⊢
  exact Config.location_of_hasEnded ⟨state, .evaluate e .bottom⟩ rfl (Config.hasEnded_of_valueEnding ended)
    Config.isDone_of_value_hasEnded

/-- A statement on its own. -/
theorem location_execute {s : Stmt} (ended : (state.execute fuel s).2 ≠ .unfinished) :
    (state.execute fuel s).1.location = state.location := by
  unfold execute at ended ⊢
  rw [Config.run_eq_iterate] at ended ⊢
  exact Config.location_of_hasEnded ⟨state, .execute s .bottom⟩ rfl (Config.hasEnded_of_flowEnding ended)
    Config.isDone_of_flow_hasEnded

/-- While a program runs, the end of it still waits at the bottom, at the location where it began. -/
theorem bottom_of_busy (state : State) {program : List Stmt} {here : Location} {n : Nat}
    (location : state.location = here)
    (busy : (Config.step^[n] (state.launch program)).isDone = false) :
    (Waiting.flow .bottom).trail here <:+ (Config.step^[n] (state.launch program)).trail := by
  apply Config.trail_iterate_step
  · rw [← location]
    exact List.suffix_rfl
  · exact fun earlier before => Config.running_of_busy busy earlier (Nat.le_of_lt before)

end State

namespace Session

variable {session : Session} {fuel : Nat} {source : String}

/-- A unit that has not ended is still unfinished when its run is looked at. -/
theorem hasEnded_of_concluded {config : Config} (ended : (session.conclude config).2 ≠ .unfinished) :
    config.HasEnded (.flow .bottom) := by
  refine Config.hasEnded_of_flowEnding fun unfinished => ended ?_
  rw [conclude, unfinished]
  rfl

/-- A unit ends where it has begun, whatever became of it. -/
theorem location_run (ended : (session.run fuel source).2 ≠ .unfinished) :
    (session.run fuel source).1.state.location = session.state.location := by
  rcases read : session.accept source with ⟨after, error | program⟩
  · rw [run_of_rejected read, (of_rejected read).1]
  · rcases accept_ok_iff.mp read with ⟨_, _, _, _, same⟩
    rw [run_of_accepted read] at ended ⊢
    have location : after.state.location = session.state.location := by rw [same]; rfl
    rw [← location]
    exact Config.location_of_hasEnded (after.state.launch program) rfl (hasEnded_of_concluded ended)
      Config.isDone_of_flow_hasEnded

theorem location_start (host : Host) (sink : Sink) (builtins : List Builtin) :
    (start host sink builtins).state.location = ⟨globalScope, 0⟩ := by
  suffices ∀ state : State, (builtins.foldl (fun state builtin =>
      state.defineFunction builtin.name (.builtin builtin)) state).location = state.location from this _
  intro state
  induction builtins generalizing state with
  | nil => rfl
  | cons builtin builtins inductionHypothesis => exact inductionHypothesis _

/-- Between its units a session is at the top level. -/
theorem Reached.location_eq (reached : session.Reached) : session.state.location = ⟨globalScope, 0⟩ := by
  induction reached with
  | start host sink builtins => exact location_start host sink builtins
  | run _ fuel source ended inductionHypothesis => exact (location_run ended).trans inductionHypothesis

/-- A unit begins at the top level with no call active. -/
theorem Reached.location_of_accepted {after : Session} {program : List Stmt} (reached : session.Reached)
    (accepted : session.accept source = (after, .ok program)) :
    after.state.location = ⟨globalScope, 0⟩ := by
  rcases accept_ok_iff.mp accepted with ⟨_, _, _, _, rfl⟩
  exact reached.location_eq

end Session

/-- Expressions and statements that have ended leave the scope and the number of active calls as they were,
on their own as well as in the middle of a run, and a unit leaves its session at the top level. -/
theorem location_restored :
    (∀ (fuel : Nat) (state : State) (e : Expr), (state.evaluate fuel e).2 ≠ .unfinished →
      (state.evaluate fuel e).1.location = state.location) ∧
    (∀ (fuel : Nat) (state : State) (s : Stmt), (state.execute fuel s).2 ≠ .unfinished →
      (state.execute fuel s).1.location = state.location) ∧
    (∀ (state : State) (e : Expr) (stack : ValueStack) (n : Nat),
      Config.EndsAt ⟨state, .evaluate e stack⟩ (.value stack) n →
      (Config.step^[n] ⟨state, .evaluate e stack⟩).state.location = state.location) ∧
    (∀ (state : State) (s : Stmt) (below : FlowStack) (n : Nat),
      Config.EndsAt ⟨state, .execute s below⟩ (.flow below) n →
      (Config.step^[n] ⟨state, .execute s below⟩).state.location = state.location) ∧
    ∀ session : Session, session.Reached → ∀ (fuel : Nat) (source : String),
      (session.run fuel source).2 ≠ .unfinished →
      (session.run fuel source).1.state.location = ⟨globalScope, 0⟩ :=
  ⟨fun _ _ _ ended => State.location_evaluate ended, fun _ _ _ ended => State.location_execute ended,
    fun _ _ _ _ endsAt => endsAt.location_eq rfl, fun _ _ _ _ endsAt => endsAt.location_eq rfl,
    fun _ reached _ _ ended => (Session.location_run ended).trans reached.location_eq⟩

/-- A call that fails inside of a block in a loop, from outside and as a unit; and a `return` out of a block. -/
theorem location_restored_afterFailure :
    let unit := "fun f() \x7b for (var i; ; ) \x7b nil(i); \x7d \x7d f();"
    let session := (Session.start {} {} []).run 60 unit
    let failing := Expr.call (.variable 9 ⟨"f", 1⟩) 1 []
    let leaving := Stmt.block [.giveBack 1 none]
    let caller := FlowStack.leaveCall 1 .bottom
    session.2 = .failed (.runtime ⟨.notCallable, 1⟩) ∧
      session.1.state.location = ⟨globalScope, 0⟩ ∧
      (session.1.state.evaluate 60 failing).2 = .failed (.runtime ⟨.notCallable, 1⟩) ∧
      (session.1.state.evaluate 60 failing).1.location = session.1.state.location ∧
      (session.1.state.execute 60 (.expression failing)).1.location = session.1.state.location ∧
      (Config.step^[1] ⟨session.1.state, .evaluate (.constant .nil) (.giveBack caller)⟩).state.location =
        session.1.state.location ∧
      (Config.step^[5] ⟨session.1.state, .execute leaving caller⟩).state.location =
        session.1.state.location := by
  intro unit session failing leaving caller
  rcases location_restored with ⟨evaluated, executed, evaluatedInside, executedInside, ran⟩
  have failed : session.2 = .failed (.runtime ⟨.notCallable, 1⟩) := by
    unfold session unit
    simp only [Session.run, Session.accept, Session.read, readProgram, tokenize_eq]
    cbv
  have failedAlone : (session.1.state.evaluate 60 failing).2 = .failed (.runtime ⟨.notCallable, 1⟩) := by
    unfold session unit
    simp only [Session.run, Session.accept, Session.read, readProgram, tokenize_eq]
    cbv
  have failedAsStatement : (session.1.state.execute 60 (.expression failing)).2 =
      .failed (.runtime ⟨.notCallable, 1⟩) := by
    unfold session unit
    simp only [Session.run, Session.accept, Session.read, readProgram, tokenize_eq]
    cbv
  refine ⟨failed, ran _ (.start {} {} []) 60 unit ?_, failedAlone, evaluated 60 _ failing ?_,
    executed 60 _ (.expression failing) ?_, evaluatedInside _ _ _ 1 ⟨⟨rfl, rfl⟩, ?_⟩,
    executedInside _ leaving caller 5 ⟨⟨rfl, rfl⟩, ?_⟩⟩
  · intro unfinished
    cases failed.symm.trans unfinished
  · intro unfinished
    cases failedAlone.symm.trans unfinished
  · intro unfinished
    cases failedAsStatement.symm.trans unfinished
  · intro earlier before ended
    obtain rfl := Nat.lt_one_iff.mp before
    cases ended.1
  · intro earlier before ended
    interval_cases earlier
    · cases ended.1
    · cases ended.1
    · cases ended.1
    · cases (Waiting.flow.inj ended.2 : FlowStack.sequence [] _ = .leaveCall 1 .bottom)
    · cases (Waiting.flow.inj ended.2 : FlowStack.leaveScope _ _ = .leaveCall 1 .bottom)

end ScopedScript

import ScopedScript.Proofs.Machine.Surroundings
import ScopedScript.Proofs.Machine.Unwinding
namespace ScopedScript

/-!
# Runs under another limit on calls

A step looks at the limit only when it is about to make a call.  So two runs that begin alike but for their
limits go on alike, as long as no call finds room under one limit only.  A call that finds no room is the end
of its run.
-/

/-- Surroundings in which another number of calls may be active. -/
def Surroundings.limited (limit : Option Nat) : Surroundings :=
  ⟨fun host => { host with callLimit := limit }, id⟩

namespace State

/-- The same state of a host with another limit on active calls. -/
def withCallLimit (state : State) (limit : Option Nat) : State :=
  { state with host := { state.host with callLimit := limit } }

/-- A host that has the limit already is not changed by it. -/
theorem withCallLimit_of_eq {state : State} {limit : Option Nat} (already : state.host.callLimit = limit) :
    state.withCallLimit limit = state := by
  subst already
  rfl

end State

namespace Config

/-- The same running program of a host with another limit on active calls. -/
def withCallLimit (config : Config) (limit : Option Nat) : Config :=
  ⟨config.state.withCallLimit limit, config.focus⟩

variable {config : Config} {limit : Option Nat}

/-- A step that makes no call, or one that finds room under both limits or under neither. -/
theorem step_withCallLimit (same : config.calling?.isSome = true →
      (config.state.withCallLimit limit).isAtCallLimit = config.state.isAtCallLimit) :
    (config.withCallLimit limit).step = config.step.withCallLimit limit := by
  have alike : (config.transferred (.limited limit)).step = config.step.transferred (.limited limit) :=
    step_transferred same (fun _ => ⟨rfl, rfl⟩) fun _ _ => rfl
  exact alike

/-- As long as no more calls are wanted than a limit allows, the run is the same without it. -/
theorem iterate_step_withCallLimit {bound n : Nat} (counted : config.Counted)
    (free : config.state.host.callLimit = none)
    (within : ∀ earlier < n, (step^[earlier] config).demand ≤ bound) :
    step^[n] (config.withCallLimit (some bound)) = (step^[n] config).withCallLimit (some bound) := by
  induction n with
  | zero => rfl
  | succ n inductionHypothesis =>
      rw [Function.iterate_succ_apply', Function.iterate_succ_apply',
        inductionHypothesis fun earlier before => within earlier (Nat.lt_succ_of_lt before)]
      refine step_withCallLimit fun calling => ?_
      have room : (step^[n] config).state.depth < bound := by
        have demanded := within n (Nat.lt_succ_self n)
        rw [demand, if_pos calling, ← counted_iterate_step counted n] at demanded
        exact demanded
      have limited : ((step^[n] config).state.withCallLimit (some bound)).host.callLimit = some bound := rfl
      rw [State.isAtCallLimit_eq_decide limited, State.isAtCallLimit, callLimit_iterate_step, free]
      exact decide_eq_false (Nat.not_le.mpr room)

/-! ## A call that finds no room -/

theorem step_eq_call_of_calling {line : Nat} (calling : config.calling? = some line) :
    ∃ callee arguments stack, callee.takes arguments.length = true ∧
      config.step = call config.state line callee arguments stack := by
  rcases config with ⟨state, focus⟩
  unfold calling? at calling
  split at calling
  · rename_i callee there stack same
    obtain rfl : focus = _ := same
    split at calling
    · rename_i takes
      cases calling
      exact ⟨callee, [], stack, takes, rfl⟩
    · cases calling
  · rename_i value there callee done stack same
    obtain rfl : focus = _ := same
    split at calling
    · rename_i takes
      cases calling
      refine ⟨callee, (value :: done).reverse, stack, ?_, rfl⟩
      rw [List.length_reverse]
      exact takes
    · cases calling
  · cases calling

/-- When all calls that may be active are, the next one fails at its closing parenthesis. -/
theorem step_of_calling {line : Nat} (calling : config.calling? = some line)
    (full : config.state.isAtCallLimit = true) :
    ∃ stack, config.step = failValue config.state .stackOverflow line stack := by
  rcases step_eq_call_of_calling calling with ⟨callee, arguments, stack, takes, same⟩
  refine ⟨stack, same.trans ?_⟩
  cases callee with
  | function identity callable =>
      have fits : arguments.length = callable.arity := beq_iff_eq.mp takes
      unfold call
      dsimp only
      rw [if_neg (not_not_intro fits), if_pos full]
  | _ => cases takes

/-! ## The first call too many -/

/-- What is about to make a call is not the end of anything that was asked for as a statement. -/
theorem not_hasEnded_of_calling {line : Nat} {below : FlowStack} (calling : config.calling? = some line) :
    ¬ config.HasEnded (.flow below) := by
  rintro ⟨-, back⟩
  rcases config with ⟨state, focus⟩
  cases focus with
  | value value stack => cases back
  | _ => cases calling

/-- The run with a limit fails where the run without one makes the first call that is one too many. -/
theorem overflows {limit n line : Nat} (counted : config.Counted)
    (free : config.state.host.callLimit = none)
    (before : ∀ m < n, (step^[m] config).demand ≤ limit)
    (full : (step^[n] config).calls = limit) (calling : (step^[n] config).calling? = some line)
    (bottom : (Waiting.flow .bottom).trail here <:+ (step^[n] config).trail) :
    ∃ enough, step^[enough] (config.withCallLimit (some limit)) =
      ⟨((step^[n] config).state.withCallLimit (some limit)).movedTo here,
        .unwindFlow (.runtime ⟨.stackOverflow, line⟩) .bottom⟩ := by
  have alike := iterate_step_withCallLimit counted free before
  have atLimit : (step^[n] (config.withCallLimit (some limit))).state.isAtCallLimit = true := by
    have limited : ((step^[n] config).state.withCallLimit (some limit)).host.callLimit = some limit := rfl
    rw [alike]
    refine (State.isAtCallLimit_eq_decide limited).trans ?_
    refine decide_eq_true (Nat.le_of_eq ?_)
    rw [← full]
    exact (counted_iterate_step counted n).symm
  have callingToo : (step^[n] (config.withCallLimit (some limit))).calling? = some line := by
    rw [alike]
    exact calling
  have bottomToo : (Waiting.flow .bottom).trail here <:+
      (step^[n] (config.withCallLimit (some limit))).trail := by
    rw [alike]
    exact bottom
  rcases step_of_calling callingToo atLimit with ⟨stack, fails⟩
  have unwinds : (step^[n] (config.withCallLimit (some limit))).step.focus.Unwinds
      (.runtime ⟨.stackOverflow, line⟩) := by
    rw [fails]
    rfl
  rcases fails_to_bottom unwinds bottomToo (not_hasEnded_of_calling callingToo) with ⟨more, reaches⟩
  refine ⟨more + n, ?_⟩
  rw [Function.iterate_add_apply, reaches, fails, alike]
  rfl

end Config

end ScopedScript

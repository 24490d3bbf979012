import Mathlib
import ScopedScript.Proofs.Machine.CallLimit
import ScopedScript.Proofs.Sessions.Elsewhere
import ScopedScript.Proofs.Sessions.Restored
namespace ScopedScript

/-!
# The limit on calls in a session

With a limit, no unit ever has more calls active than that.  A unit that does without more runs as it would
without a limit.  Any other unit runs so up to the first call that is one too many, and ends there: the call
fails, and what the unit has printed and bound until then is what it leaves.
-/

namespace Config

variable {config : Config} {limit n : Nat}

/-- What is done makes no call any more. -/
theorem calling?_of_isDone (done : config.isDone = true) : config.calling? = none := by
  rcases config with ⟨state, focus⟩
  cases focus with
  | value value stack =>
      cases stack with
      | bottom => rfl
      | _ => cases done
  | _ => rfl

theorem busy_of_calling {line : Nat} (calling : config.calling? = some line) : config.isDone = false := by
  by_contra done
  rw [calling?_of_isDone (Bool.not_eq_false _ ▸ done)] at calling
  cases calling

/-- The first moment at which one call too many is wanted: all that may be active are, and there is another
one to be made. -/
theorem exists_first_excess (limited : ∀ n, (∀ m < n, (step^[m] config).demand ≤ limit) →
      (step^[n] config).calls ≤ limit) (excess : ∃ n, limit < (step^[n] config).demand) :
    ∃ n line, (∀ m < n, (step^[m] config).demand ≤ limit) ∧ (step^[n] config).calls = limit ∧
      (step^[n] config).calling? = some line := by
  classical
  obtain ⟨first, exceeds, least⟩ : ∃ first, limit < (step^[first] config).demand ∧
      ∀ m < first, ¬ limit < (step^[m] config).demand :=
    ⟨Nat.find excess, Nat.find_spec excess, fun _ => Nat.find_min excess⟩
  have before : ∀ m < first, (step^[m] config).demand ≤ limit :=
    fun m earlier => Nat.not_lt.mp (least m earlier)
  have within := limited first before
  cases calling : (step^[first] config).calling? with
  | none =>
      rw [demand, calling] at exceeds
      exact absurd exceeds (Nat.not_lt.mpr within)
  | some line =>
      rw [demand, calling] at exceeds
      exact ⟨first, line, before, Nat.le_antisymm within (Nat.le_of_lt_succ exceeds), calling⟩

/-- A call that is to be made while as many are active as may be fails in the next step. -/
theorem iterate_step_at_limit {line : Nat} (counted : config.Counted)
    (limited : config.state.host.callLimit = some limit) (calling : (step^[n] config).calling? = some line)
    (full : (step^[n] config).calls = limit) :
    ∃ stack, step^[n + 1] config = failValue (step^[n] config).state .stackOverflow line stack := by
  have atLimit : (step^[n] config).state.isAtCallLimit = true := by
    have limitedHere : (step^[n] config).state.host.callLimit = some limit := by
      rw [callLimit_iterate_step]
      exact limited
    refine (State.isAtCallLimit_eq_decide limitedHere).trans (decide_eq_true (Nat.le_of_eq ?_))
    rw [← full]
    exact (counted_iterate_step counted n).symm
  rcases step_of_calling calling atLimit with ⟨stack, fails⟩
  exact ⟨stack, (Function.iterate_succ_apply' step n _).trans fails⟩

end Config

namespace Session

/-- The same session on a host with another limit on active calls. -/
def withCallLimit (session : Session) (limit : Option Nat) : Session :=
  ⟨session.state.withCallLimit limit, session.next⟩

variable {session after : Session} {source : String} {program : List Stmt} {limit : Nat}

theorem accept_withCallLimit (accepted : session.accept source = (after, .ok program)) (limit : Option Nat) :
    (session.withCallLimit limit).accept source = (after.withCallLimit limit, .ok program) :=
  accept_transferred accepted (.limited limit)

theorem conclude_withCallLimit (session : Session) (config : Config) (limit : Option Nat) :
    session.conclude (config.withCallLimit limit) =
      ((session.conclude config).1.withCallLimit limit, (session.conclude config).2) := by
  have sameFlush : ((Surroundings.limited limit).sink config.state.sink).flushFails =
      config.state.sink.flushFails := rfl
  exact session.conclude_transferred config sameFlush

theorem callLimit_of_accepted (accepted : session.accept source = (after, .ok program)) :
    after.state.host.callLimit = session.state.host.callLimit := by
  rcases accept_ok_iff.mp accepted with ⟨_, _, _, _, rfl⟩
  rfl

theorem launch_withCallLimit {limit : Option Nat} (limited : after.state.host.callLimit = limit)
    (program : List Stmt) (other : Option Nat) :
    ((after.withCallLimit other).state.launch program).withCallLimit limit = after.state.launch program :=
  congrArg (fun state => State.launch state program) (State.withCallLimit_of_eq limited)

open Config (step)

/-- Until more calls are wanted than may be active, the limit makes no difference. -/
theorem iterate_step_of_demand (limited : after.state.host.callLimit = some limit)
    (location : after.state.location = ⟨globalScope, 0⟩) {n : Nat}
    (before : ∀ m < n, (step^[m] ((after.withCallLimit none).state.launch program)).demand ≤ limit) :
    step^[n] (after.state.launch program) =
      (step^[n] ((after.withCallLimit none).state.launch program)).withCallLimit (some limit) := by
  have counted : ((after.withCallLimit none).state.launch program).Counted := congrArg Location.depth location
  rw [← launch_withCallLimit limited program none]
  exact Config.iterate_step_withCallLimit counted rfl before

/-- The first call that is one too many is the end of its unit. -/
theorem run_of_excess (accepted : session.accept source = (after, .ok program))
    (limited : after.state.host.callLimit = some limit) (location : after.state.location = ⟨globalScope, 0⟩)
    {n line : Nat}
    (before : ∀ m < n, (step^[m] ((after.withCallLimit none).state.launch program)).demand ≤ limit)
    (full : (step^[n] ((after.withCallLimit none).state.launch program)).calls = limit)
    (calling : (step^[n] ((after.withCallLimit none).state.launch program)).calling? = some line) :
    let stopped := (step^[n] ((after.withCallLimit none).state.launch program)).state
    ∃ enough, ∀ fuel ≥ enough, session.run fuel source =
      (⟨(stopped.withCallLimit (some limit)).movedTo ⟨globalScope, 0⟩, after.next⟩,
        .failed (.runtime ⟨.stackOverflow, line⟩)) := by
  have counted : ((after.withCallLimit none).state.launch program).Counted := congrArg Location.depth location
  have bottom := (after.withCallLimit none).state.bottom_of_busy location (Config.busy_of_calling calling)
  rcases Config.overflows counted rfl before full calling bottom with ⟨enough, reaches⟩
  rw [launch_withCallLimit limited program none] at reaches
  exact ⟨enough, run_of_unwound accepted reaches⟩

end Session

open Config (step) in
/-- The limit on calls is exact, and nothing else comes of it.  No more calls than the limit are active, and
the state has counted them.  A unit that never wants more leaves and reports what it would without a limit.
Another one goes the same way up to the first call that is one too many, and fails with that. -/
theorem call_limit_exact {session after : Session} {source : String} {program : List Stmt} {limit : Nat}
    (reached : session.Reached) (limited : session.state.host.callLimit = some limit)
    (accepted : session.accept source = (after, .ok program)) :
    let free := session.withCallLimit none
    let checked n := step^[n] (after.state.launch program)
    let unchecked n := step^[n] ((after.withCallLimit none).state.launch program)
    free.accept source = (after.withCallLimit none, .ok program) ∧
    (∀ n, (checked n).state.depth = (checked n).calls ∧ (checked n).calls ≤ limit ∧
      ∀ line, (checked n).calling? = some line → (checked n).calls = limit →
        ∃ stack, checked (n + 1) = Config.failValue (checked n).state .stackOverflow line stack) ∧
    ((∀ n, (unchecked n).demand ≤ limit) → ∀ fuel, session.run fuel source =
      ((free.run fuel source).1.withCallLimit (some limit), (free.run fuel source).2)) ∧
    ((∃ n, limit < (unchecked n).demand) → ∃ n line,
      (∀ m < n, (unchecked m).demand ≤ limit) ∧
      (∀ m ≤ n, checked m = (unchecked m).withCallLimit (some limit)) ∧
      (unchecked n).calls = limit ∧ (unchecked n).calling? = some line ∧
      ∃ enough, ∀ fuel ≥ enough, session.run fuel source =
        (⟨((unchecked n).state.withCallLimit (some limit)).movedTo ⟨globalScope, 0⟩, after.next⟩,
          .failed (.runtime ⟨.stackOverflow, line⟩))) := by
  intro free checked unchecked
  have limitedAfter := (Session.callLimit_of_accepted accepted).trans limited
  have location := reached.location_of_accepted accepted
  have counted : (after.state.launch program).Counted := congrArg Location.depth location
  have bounded := Config.calls_iterate_step_le limitedAfter counted (Nat.zero_le limit)
  have alike : ∀ n, (∀ m < n, (unchecked m).demand ≤ limit) →
      checked n = (unchecked n).withCallLimit (some limit) :=
    fun n => Session.iterate_step_of_demand limitedAfter location
  refine ⟨Session.accept_withCallLimit accepted none, fun n => ⟨?_, bounded n, ?_⟩, ?_, ?_⟩
  · exact Config.counted_iterate_step counted n
  · exact fun line => Config.iterate_step_at_limit counted limitedAfter
  · intro within fuel
    rw [Session.run_of_accepted accepted, Session.run_of_accepted (Session.accept_withCallLimit accepted none)]
    have same := alike fuel fun m _ => within m
    unfold checked at same
    rw [same]
    exact after.conclude_withCallLimit (unchecked fuel) (some limit)
  · intro excess
    have limitedCalls : ∀ n, (∀ m < n, (unchecked m).demand ≤ limit) → (unchecked n).calls ≤ limit := by
      intro n before
      have within := bounded n
      have same := alike n before
      unfold checked at same
      rwa [same] at within
    rcases Config.exists_first_excess limitedCalls excess with ⟨n, line, before, full, calling⟩
    refine ⟨n, line, before, fun m early => ?_, full, calling, ?_⟩
    · exact alike m fun earlier first => before earlier (Nat.lt_of_lt_of_le first early)
    · exact Session.run_of_excess accepted limitedAfter location before full calling

open Config (step) in
/-- A function that calls itself for ever, where two calls may be active.  Its call ends on the second line,
the one that calls it first on the third. -/
theorem call_limit_exact_runaway :
    let session := Session.start { callLimit := some 2 } {} []
    let unit := "fun f() \x7b print \"x\"; f(\n); \x7d\nf();"
    let program : List Stmt :=
      [.function ⟨"f", 1⟩ []
        [.print 1 [.constant (.text "x")], .expression (.call (.variable 0 ⟨"f", 1⟩) 2 [])],
        .expression (.call (.variable 1 ⟨"f", 3⟩) 3 [])]
    let after := (session.accept unit).1
    let unchecked n := step^[n] ((after.withCallLimit none).state.launch program)
    session.Reached ∧ session.state.host.callLimit = some 2 ∧ session.accept unit = (after, .ok program) ∧
      2 < (unchecked 27).demand ∧
      ∃ n, (unchecked n).calls = 2 ∧ (unchecked n).calling? = some 2 ∧
        ∃ enough, ∀ fuel ≥ enough, session.run fuel unit =
          (⟨((unchecked n).state.withCallLimit (some 2)).movedTo ⟨globalScope, 0⟩, after.next⟩,
            .failed (.runtime ⟨.stackOverflow, 2⟩)) := by
  intro session unit program after unchecked
  have reached : session.Reached := .start _ {} []
  have accepted : session.accept unit = (after, .ok program) := by
    have read : (session.accept unit).2 = .ok program := by
      unfold session unit program
      simp only [Session.accept, Session.read, readProgram, tokenize_eq]
      cbv
    exact Prod.ext rfl read
  have excess : 2 < (unchecked 27).demand := by
    unfold unchecked after session unit program
    simp only [Session.accept, Session.read, readProgram, tokenize_eq]
    cbv
  have failed : (session.run 70 unit).2 = .failed (.runtime ⟨.stackOverflow, 2⟩) := by
    unfold session unit
    simp only [Session.run, Session.accept, Session.read, readProgram, tokenize_eq]
    cbv
  have ended : (session.run 70 unit).2 ≠ .unfinished := by
    rw [failed]
    intro impossible
    cases impossible
  rcases call_limit_exact reached rfl accepted with ⟨-, -, -, overflow⟩
  rcases overflow ⟨27, excess⟩ with ⟨n, line, -, -, full, calling, enough, runs⟩
  -- Both runs have ended, so they have ended alike.
  have same := (runs _ (Nat.le_max_left enough 70)).symm.trans
    (Session.run_eq_of_le ended (Nat.le_max_right enough 70))
  cases (congrArg Prod.snd same).trans failed
  exact ⟨reached, rfl, accepted, excess, n, full, calling, enough, runs⟩

end ScopedScript

import ScopedScript.Proofs.Machine.Runs
import ScopedScript.Proofs.Sessions.Elsewhere
namespace ScopedScript

/-!
# Runs that a host drives

A host need not know what its clock will show.  It takes a running program forward, hands in a reading where the next
step wants one, and takes the output out of the sink when it likes.  This is the run on any clock that shows these
readings in this order, and the output is what that run prints, piece by piece.
-/

/-- A host with another clock, and a sink from which this output was taken out. -/
def Surroundings.behind (clock : Nat → ClockReading) (output : ByteArray) : Surroundings where
  host before := { before with clock }
  sink before := { before with written := output ++ before.written }

variable {clock : Nat → ClockReading} {output : ByteArray}

theorem Surroundings.takes_behind (sink : Sink) (text : String) : (behind clock output).Takes sink text := by
  unfold Takes Sink.writeLine Sink.write
  dsimp only [behind]
  cases sink.room with
  | none => rw [ByteArray.append_assoc]
  | some room =>
      dsimp only
      split
      · rw [ByteArray.append_assoc]
      · rw [ByteArray.append_assoc]

namespace Config

variable {first config : Config} {readings : List ClockReading}

/-! ## Single steps -/

/-- A call that comes to a builtin reads the clock once, even if the builtin fails. -/
theorem ticks_call {state : State} {callee : Value} (arguments : List Value)
    (asks : state.asksBuiltin callee arguments.length = true) (line : Nat) (stack : ValueStack) :
    (call state line callee arguments stack).state.host.ticks = state.host.ticks + 1 := by
  cases callee with
  | function identity callable =>
      cases callable with
      | closure closure => cases asks
      | builtin builtin =>
          rcases Bool.and_eq_true_iff.mp asks with ⟨fits, room⟩
          have fits : arguments.length = (Callable.builtin builtin).arity := beq_iff_eq.mp fits
          have room : state.isAtCallLimit = false := Bool.not_inj room
          rw [call, if_neg (not_not_intro fits), room, if_neg Bool.false_ne_true]
          cases builtin.apply state.host.reading arguments <;> rfl
  | _ => cases asks

theorem ticks_step_of_reading (reads : config.readsClock = true) :
    config.step.state.host.ticks = config.state.host.ticks + 1 := by
  rcases config with ⟨state, focus⟩
  unfold readsClock at reads
  split at reads
  · rename_i callee line stack isCall
    cases isCall
    exact ticks_call [] reads line stack
  · rename_i value line callee done stack isCall
    cases isCall
    refine ticks_call (value :: done).reverse ?_ line stack
    rwa [List.length_reverse]
  · cases reads

/-- A step that does not read the clock is the same on any clock. -/
theorem step_behind (notReading : config.readsClock = false) :
    (config.transferred (.behind clock output)).step = config.step.transferred (.behind clock output) := by
  refine step_transferred (fun _ => rfl) (fun reading => ?_) fun text _ => Surroundings.takes_behind _ text
  rw [notReading] at reading
  cases reading

/-- A step that reads the clock is the same on any clock that shows the reading. -/
theorem stepReading_behind (config : Config) {reading : ClockReading}
    (shows : clock config.state.host.ticks = reading) :
    (config.transferred (.behind clock output)).step =
      (config.stepReading reading).transferred (.behind clock output) := by
  have same : (config.withClock fun _ => reading).transferred (.behind clock output) =
      config.transferred (.behind clock output) := rfl
  rw [← same, stepReading]
  exact step_transferred (fun _ => rfl) (fun _ => ⟨shows, rfl⟩) fun text _ => Surroundings.takes_behind _ text

/-! ## Whole runs -/

/-- A stretch of a run is some steps of it, none of which reads the clock. -/
theorem advance_behind (clock : Nat → ClockReading) (output : ByteArray) (fuel : Nat) (config : Config) :
    (config.advance fuel).state.host.ticks = config.state.host.ticks ∧
      ∃ n, step^[n] (config.transferred (.behind clock output)) =
        (config.advance fuel).transferred (.behind clock output) := by
  induction fuel generalizing config with
  | zero => exact ⟨rfl, 0, rfl⟩
  | succ fuel inductionHypothesis =>
      rw [advance]
      split
      · exact ⟨rfl, 0, rfl⟩
      · rename_i running
        have notReading : config.readsClock = false := (Bool.or_eq_false_iff.mp (Bool.eq_false_iff.mpr running)).2
        rcases inductionHypothesis config.step with ⟨ticks, n, steps⟩
        refine ⟨?_, n + 1, ?_⟩
        · rw [ticks, host_step_of_not_reading notReading]
        · rw [Function.iterate_succ_apply, step_behind notReading, steps]

/-- What a host does with a running program, the readings that it hands in, and the output that it takes out. -/
inductive Driven (first : Config) : List ClockReading → ByteArray → Config → Prop where
  | start : Driven first [] .empty first
  | advance {readings : List ClockReading} {output : ByteArray} {config : Config}
      (driven : Driven first readings output config) (fuel : Nat) : Driven first readings output (config.advance fuel)
  | read {readings : List ClockReading} {output : ByteArray} {config : Config}
      (driven : Driven first readings output config) (reads : config.readsClock = true) (reading : ClockReading) :
      Driven first (readings ++ [reading]) output (config.stepReading reading)
  | drain {readings : List ClockReading} {output : ByteArray} {config : Config}
      (driven : Driven first readings output config) :
      Driven first readings (output ++ config.state.sink.written) config.drained

/-- A driven run is a run on every clock that shows the readings, and its output is in front of what is still in the
sink. -/
theorem Driven.exists_steps (driven : Driven first readings output config) :
    config.state.host.ticks = first.state.host.ticks + readings.length ∧
      ((∀ place reading, readings[place]? = some reading → clock (first.state.host.ticks + place) = reading) →
        ∃ n, step^[n] (first.transferred (.behind clock .empty)) = config.transferred (.behind clock output)) := by
  induction driven with
  | start => exact ⟨rfl, fun _ => ⟨0, rfl⟩⟩
  | @advance readings output config driven fuel inductionHypothesis =>
      rcases inductionHypothesis with ⟨ticks, runs⟩
      rcases advance_behind clock output fuel config with ⟨still, m, stretch⟩
      refine ⟨still.trans ticks, fun shows => ?_⟩
      rcases runs shows with ⟨n, steps⟩
      exact ⟨m + n, by rw [Function.iterate_add_apply, steps, stretch]⟩
  | @read readings output config driven reads reading inductionHypothesis =>
      rcases inductionHypothesis with ⟨ticks, runs⟩
      refine ⟨?_, fun shows => ?_⟩
      · have reads : (config.withClock fun _ => reading).readsClock = true := reads
        rw [stepReading, ticks_step_of_reading reads, List.length_append, ← Nat.add_assoc, ← ticks]
        rfl
      · obtain ⟨n, steps⟩ := runs fun place earlier found =>
          shows place earlier (List.getElem?_append_left (List.getElem?_eq_some_iff.mp found).1 ▸ found)
        have now : clock config.state.host.ticks = reading := by
          rw [ticks]
          exact shows readings.length reading List.getElem?_concat_length
        exact ⟨n + 1, by rw [Function.iterate_succ_apply', steps, stepReading_behind config now]⟩
  | @drain readings output config driven inductionHypothesis =>
      rcases inductionHypothesis with ⟨ticks, runs⟩
      refine ⟨ticks, fun shows => ?_⟩
      rcases runs shows with ⟨n, steps⟩
      have whole : output ++ config.state.sink.written ++ .empty = output ++ config.state.sink.written :=
        ByteArray.append_empty
      refine ⟨n, steps.trans ?_⟩
      rw [drained, transferred, transferred, State.transferred, State.transferred]
      dsimp only [Surroundings.behind, Sink.drained]
      rw [whole]

end Config

namespace Session

open Config (step iterate_step_eq_of_le)

variable {session after : Session} {source : String} {program : List Stmt} {config : Config}
  {readings : List ClockReading}

/-- What a driven run of a unit has come to in the end is what the unit comes to, on any clock that shows the readings,
and what was taken out of the sink is in front of what is still in it. -/
theorem run_of_driven (accepted : session.accept source = (after, .ok program))
    (driven : (after.state.launch program).Driven readings output config) (done : config.isDone = true)
    (shows : ∀ place reading, readings[place]? = some reading → clock (session.state.host.ticks + place) = reading) :
    ∃ enough, ∀ fuel ≥ enough, (session.transferred (.behind clock .empty)).run fuel source =
      ((after.conclude config).1.transferred (.behind clock output), (after.conclude config).2) := by
  have sameHost : after.state.host = session.state.host := by
    rcases accept_ok_iff.mp accepted with ⟨next, references, -, -, rfl⟩
    rfl
  have showsAfter : ∀ place reading, readings[place]? = some reading →
      clock (after.state.host.ticks + place) = reading := by
    rw [sameHost]
    exact shows
  rcases driven.exists_steps with ⟨-, runs⟩
  rcases runs showsAfter with ⟨n, steps⟩
  have doneToo : (step^[n] ((after.state.launch program).transferred (.behind clock .empty))).isDone = true := by
    rw [steps]
    exact done
  refine ⟨n, fun fuel later => ?_⟩
  rw [run_of_accepted (accept_transferred accepted _)]
  change (after.transferred _).conclude (step^[fuel] ((after.state.launch program).transferred _)) = _
  rw [iterate_step_eq_of_le doneToo later, steps]
  exact conclude_transferred after config rfl

end Session

end ScopedScript

import ScopedScript.Proofs.Machine.Changes
import ScopedScript.Proofs.Machine.Runs
namespace ScopedScript

/-!
# What has been printed stays printed

Only `print` touches the sink, and a write only appends to what the sink has taken.  So whatever a run
does later, its output begins with what it has printed so far, and whether the sink can be flushed does
not depend on the run.
-/

namespace Sink

/-- Everything that one sink has taken is at the beginning of what another one has taken. -/
def Precedes (sink later : Sink) : Prop := ∃ more, later.written = sink.written ++ more

variable {sink middle later : Sink}

theorem Precedes.refl (sink : Sink) : Precedes sink sink := ⟨.empty, ByteArray.append_empty.symm⟩

theorem Precedes.of_eq (same : later = sink) : Precedes sink later := by
  subst same
  exact .refl _

theorem Precedes.trans (first : Precedes sink middle) (second : Precedes middle later) :
    Precedes sink later := by
  rcases first with ⟨some, written⟩
  rcases second with ⟨more, writtenLater⟩
  refine ⟨some ++ more, ?_⟩
  rw [writtenLater, written, ByteArray.append_assoc]

/-- A sink has taken one more text at most. -/
def Takes (sink later : Sink) : Prop := later = sink ∨ ∃ bytes, later = (sink.write bytes).1

theorem Takes.precedes (takes : Takes sink later) : Precedes sink later := by
  rcases takes with same | ⟨bytes, written⟩
  · exact .of_eq same
  · subst written
    unfold write
    split
    · exact ⟨bytes, rfl⟩
    · split
      · exact ⟨bytes, rfl⟩
      · exact ⟨_, rfl⟩

theorem Takes.flushFails (takes : Takes sink later) : later.flushFails = sink.flushFails := by
  rcases takes with same | ⟨bytes, written⟩
  · exact congrArg Sink.flushFails same
  · subst written
    unfold write
    split
    · rfl
    · split <;> rfl

end Sink

theorem State.sink_enterCall (state : State) (closure : Closure) (arguments : List Value) :
    (state.enterCall closure arguments).sink = state.sink :=
  bindParameters_of_define (P := fun after => after.sink = state.sink) (fun _ _ _ holds => holds)
    closure.parameters rfl

/-- Only the writing of a line touches the sink. -/
theorem State.Becomes.takes {state after : State} (becomes : state.Becomes after) :
    state.sink.Takes after.sink := by
  cases becomes with
  | writeLine text => exact .inr ⟨_, rfl⟩
  | enterCall closure arguments => exact .inl (state.sink_enterCall closure arguments)
  | _ => exact .inl rfl

namespace Config

theorem takes_step (config : Config) : config.state.sink.Takes config.step.state.sink :=
  config.becomes_step.takes

/-- A longer run has printed what a shorter one has, and perhaps more. -/
theorem precedes_iterate_step {n m : Nat} (config : Config) (later : n ≤ m) :
    (step^[n] config).state.sink.Precedes (step^[m] config).state.sink := by
  induction later with
  | refl => exact .refl _
  | step _ inductionHypothesis =>
      rw [Function.iterate_succ_apply']
      exact inductionHypothesis.trans (takes_step _).precedes

/-- No run changes whether the sink can be flushed. -/
theorem flushFails_iterate_step (config : Config) (n : Nat) :
    (step^[n] config).state.sink.flushFails = config.state.sink.flushFails := by
  induction n with
  | zero => rfl
  | succ n inductionHypothesis =>
      rw [Function.iterate_succ_apply', (takes_step _).flushFails]
      exact inductionHypothesis

end Config

end ScopedScript

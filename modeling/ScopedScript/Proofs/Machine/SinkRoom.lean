import ScopedScript.Proofs.Machine.Output
import ScopedScript.Proofs.Machine.Surroundings
import ScopedScript.Proofs.Machine.Unwinding
namespace ScopedScript

/-!
# Runs with less room in the sink

Nothing that has been printed is ever looked at again, and a run learns of the room in its sink only when a
line does not fit.  So with little room a run goes on as with unlimited room, as long as all lines fit.  The
first line that does not fit is cut where the room ends, and the run fails with it.
-/

/-! ## Beginnings of what is written -/

section Bytes

variable {taken more : ByteArray} {total : Nat}

/-- A beginning that reaches into the second part. -/
theorem extract_append_of_le (within : taken.size ≤ total) :
    (taken ++ more).extract 0 total = taken ++ more.extract 0 (total - taken.size) := by
  have whole : taken.extract 0 (max total taken.size) = taken := ByteArray.extract_zero_max_size
  rw [max_eq_left within] at whole
  rw [ByteArray.extract_append, whole, Nat.zero_sub]

/-- A beginning that does not reach beyond the first part. -/
theorem extract_append_of_ge (beyond : total ≤ taken.size) :
    (taken ++ more).extract 0 total = taken.extract 0 total := by
  rw [ByteArray.extract_append, Nat.sub_eq_zero_of_le beyond, Nat.zero_sub, ByteArray.extract_same,
    ByteArray.append_empty]

end Bytes

namespace Sink

/-- The same sink with room up to the given size in all. -/
def capped (sink : Sink) (total : Nat) : Sink := { sink with room := some (total - sink.written.size) }

variable {sink later : Sink} {total : Nat} {bytes : ByteArray}

theorem Precedes.size_le (precedes : Precedes sink later) : sink.written.size ≤ later.written.size := by
  rcases precedes with ⟨more, written⟩
  rw [written, ByteArray.size_append]
  exact Nat.le_add_right _ _

theorem write_of_free (free : sink.room = none) (bytes : ByteArray) :
    sink.write bytes = ({ sink with written := sink.written ++ bytes }, true) := by
  unfold write
  rw [free]

theorem Takes.free (takes : Takes sink later) (free : sink.room = none) : later.room = none := by
  rcases takes with rfl | ⟨bytes, rfl⟩
  · exact free
  · rw [write_of_free free]
    exact free

/-- What fits is taken as if there were no limit. -/
theorem write_capped (free : sink.room = none) (fits : sink.written.size + bytes.size ≤ total) :
    (sink.capped total).write bytes = ((sink.write bytes).1.capped total, (sink.write bytes).2) := by
  have within : bytes.size ≤ total - sink.written.size := Nat.le_sub_of_add_le' fits
  rw [write_of_free free]
  unfold write capped
  dsimp only
  rw [if_pos within, ByteArray.size_append, Nat.sub_add_eq]

/-- What does not fit is cut where the room ends. -/
theorem write_capped_of_excess (free : sink.room = none) (within : sink.written.size ≤ total)
    (excess : total < (sink.write bytes).1.written.size) :
    (sink.capped total).write bytes =
      ({ sink with written := (sink.write bytes).1.written.extract 0 total, room := some 0 }, false) := by
  rw [write_of_free free, ByteArray.size_append] at excess
  have beyond : ¬ bytes.size ≤ total - sink.written.size := by omega
  rw [write_of_free free]
  unfold write capped
  dsimp only
  rw [if_neg beyond, extract_append_of_le within]

end Sink

/-- Surroundings in which the sink has room up to the given size in all. -/
def Surroundings.capped (total : Nat) : Surroundings := ⟨id, (·.capped total)⟩

namespace Config

variable {config : Config} {total n : Nat}

theorem sink_step_of_printing {text : String} (printing : config.printing? = some text) :
    config.step.state.sink = (config.state.sink.writeLine text).1 := by
  rcases focus_of_printing printing with ⟨value, line, pending, below, focus, rfl⟩
  rcases config with ⟨state, _⟩
  subst focus
  exact congrArg State.sink (state_print state below line value pending)

theorem free_iterate_step (free : config.state.sink.room = none) (n : Nat) :
    (step^[n] config).state.sink.room = none := by
  induction n with
  | zero => exact free
  | succ n inductionHypothesis =>
      rw [Function.iterate_succ_apply']
      exact (takes_step _).free inductionHypothesis

/-- At every moment an unlimited sink that can be flushed is still one. -/
theorem sink_of_unlimited {before : ByteArray} (unlimited : config.state.sink = ⟨before, none, false⟩) (n : Nat) :
    (step^[n] config).state.sink = ⟨(step^[n] config).state.sink.written, none, false⟩ := by
  have free := free_iterate_step (congrArg Sink.room unlimited) n
  have flushes := (flushFails_iterate_step config n).trans (congrArg Sink.flushFails unlimited)
  generalize (step^[n] config).state.sink = sink at *
  rcases sink with ⟨written, room, flushFails⟩
  cases free
  cases flushes
  rfl

/-- A step that leaves no more in the sink than there is room for is the same with that room. -/
theorem step_capped (free : config.state.sink.room = none)
    (within : config.step.state.sink.written.size ≤ total) :
    (config.transferred (.capped total)).step = config.step.transferred (.capped total) := by
  apply step_transferred (fun _ => rfl) fun _ => ⟨rfl, rfl⟩
  intro text printing
  rw [sink_step_of_printing printing, Sink.writeLine, Sink.write_of_free free, ByteArray.size_append] at within
  exact Sink.write_capped free within

/-- As long as everything that is printed fits, a run is the same with less room. -/
theorem iterate_step_capped (free : config.state.sink.room = none)
    (within : (step^[n] config).state.sink.written.size ≤ total) :
    step^[n] (config.transferred (.capped total)) = (step^[n] config).transferred (.capped total) := by
  induction n with
  | zero => rfl
  | succ n inductionHypothesis =>
      have sooner := Nat.le_trans (precedes_iterate_step config (Nat.le_succ n)).size_le within
      rw [Function.iterate_succ_apply'] at within
      rw [Function.iterate_succ_apply', Function.iterate_succ_apply', inductionHypothesis sooner]
      exact step_capped (free_iterate_step free n) within

/-- There is a last moment at which everything that has been printed fits. -/
theorem exists_last_within (within : config.state.sink.written.size ≤ total)
    (excess : total < (step^[n] config).state.sink.written.size) :
    ∃ k < n, (step^[k] config).state.sink.written.size ≤ total ∧
      total < (step^[k + 1] config).state.sink.written.size := by
  induction n with
  | zero => exact absurd within (Nat.not_le.mpr excess)
  | succ n inductionHypothesis =>
      by_cases sooner : total < (step^[n] config).state.sink.written.size
      · rcases inductionHypothesis sooner with ⟨k, before, last⟩
        exact ⟨k, Nat.lt_succ_of_lt before, last⟩
      · exact ⟨n, Nat.lt_succ_self n, Nat.not_lt.mp sooner, excess⟩

/-- A step that prints more than there is room for prints a line, and with that room it fails there. -/
theorem step_capped_of_excess (free : config.state.sink.room = none)
    (within : config.state.sink.written.size ≤ total)
    (excess : total < config.step.state.sink.written.size) :
    ∃ value line pending below, config.focus = .value value (.print line pending below) ∧
      (config.transferred (.capped total)).step =
        failFlow { config.state with
            sink := ⟨config.step.state.sink.written.extract 0 total, some 0, config.state.sink.flushFails⟩ }
          (.output Sink.fullReason) line below := by
  cases printing : config.printing? with
  | none =>
      rw [sink_step_of_not_printing printing] at excess
      exact absurd within (Nat.not_le.mpr excess)
  | some text =>
      have printed := sink_step_of_printing printing
      rcases focus_of_printing printing with ⟨value, line, pending, below, focus, rfl⟩
      refine ⟨value, line, pending, below, focus, ?_⟩
      rw [printed] at excess ⊢
      have cut := Sink.write_capped_of_excess free within excess
      rcases config with ⟨state, _⟩
      subst focus
      have written : ({ state with sink := state.sink.capped total } : State).writeLine value.render =
          ({ state with sink := ⟨(state.sink.writeLine value.render).1.written.extract 0 total, some 0,
            state.sink.flushFails⟩ }, false) := by
        unfold State.writeLine
        dsimp only
        unfold Sink.writeLine
        rw [cut]
      change print { state with sink := state.sink.capped total } line value pending below = _
      unfold print
      rw [written]

/-- With less room a run fails with the first line that does not fit, and goes down to the bottom with that. -/
theorem overfills {here : Location} (free : config.state.sink.room = none)
    (within : (step^[n] config).state.sink.written.size ≤ total)
    (excess : total < (step^[n + 1] config).state.sink.written.size)
    (bottom : (Waiting.flow .bottom).trail here <:+ (step^[n] config).trail) :
    ∃ value line pending below, (step^[n] config).focus = .value value (.print line pending below) ∧
      ∃ enough, step^[enough] (config.transferred (.capped total)) =
        ⟨({ (step^[n] config).state with
            sink := ⟨(step^[n + 1] config).state.sink.written.extract 0 total, some 0,
              (step^[n] config).state.sink.flushFails⟩ } : State).movedTo here,
          .unwindFlow (.runtime ⟨.output Sink.fullReason, line⟩) .bottom⟩ := by
  rw [Function.iterate_succ_apply'] at excess ⊢
  rcases step_capped_of_excess (free_iterate_step free n) within excess with
    ⟨value, line, pending, below, focus, fails⟩
  refine ⟨value, line, pending, below, focus, ?_⟩
  have unwinds : ((step^[n] config).transferred (.capped total)).step.focus.Unwinds
      (.runtime ⟨.output Sink.fullReason, line⟩) := by
    rw [fails]
    rfl
  have running : ¬ ((step^[n] config).transferred (.capped total)).HasEnded (.flow .bottom) := by
    rintro ⟨-, back⟩
    change (step^[n] config).focus.waiting = _ at back
    rw [focus] at back
    cases back
  rcases fails_to_bottom unwinds bottom running with ⟨more, reaches⟩
  refine ⟨more + n, ?_⟩
  rw [Function.iterate_add_apply, iterate_step_capped free within, reaches, fails]
  rfl

/-- What has been written when no more fitted is a beginning of all that is written without a limit. -/
theorem extract_written {before printed : ByteArray} {room k : Nat}
    (written : (step^[n] config).state.sink.written = before ++ printed) (earlier : k ≤ n)
    (beyond : before.size + room ≤ (step^[k] config).state.sink.written.size) :
    (step^[k] config).state.sink.written.extract 0 (before.size + room) = before ++ printed.extract 0 room := by
  rcases precedes_iterate_step config earlier with ⟨more, whole⟩
  calc (step^[k] config).state.sink.written.extract 0 (before.size + room)
      = ((step^[k] config).state.sink.written ++ more).extract 0 (before.size + room) :=
        (extract_append_of_ge beyond).symm
    _ = (before ++ printed).extract 0 (before.size + room) := by rw [← whole, written]
    _ = before ++ printed.extract 0 room := by
        rw [extract_append_of_le (Nat.le_add_right _ _), Nat.add_sub_cancel_left]

/-- A run that prints too much for a sink is cut off there, at the moment when it is about to print what does not
fit any more. -/
theorem truncates {before printed : ByteArray} {room : Nat} {here : Location}
    (unlimited : config.state.sink = ⟨before, none, false⟩)
    (written : (step^[n] config).state.sink.written = before ++ printed) (excess : room < printed.size)
    (bottom : ∀ k, (step^[k] config).isDone = false →
      (Waiting.flow .bottom).trail here <:+ (step^[k] config).trail) :
    ∃ k value line pending below,
      (step^[k] config).focus = .value value (.print line pending below) ∧
      (step^[k] config).state.sink.written.size ≤ before.size + room ∧
      before.size + room < (step^[k + 1] config).state.sink.written.size ∧
      ∃ enough, step^[enough] (config.transferred (.capped (before.size + room))) =
        ⟨({ (step^[k] config).state with sink := ⟨before ++ printed.extract 0 room, some 0, false⟩ } : State).movedTo
            here, .unwindFlow (.runtime ⟨.output Sink.fullReason, line⟩) .bottom⟩ := by
  have free : config.state.sink.room = none := congrArg Sink.room unlimited
  have first : config.state.sink.written.size ≤ before.size + room := by
    rw [unlimited]
    exact Nat.le_add_right _ _
  have tooMuch : before.size + room < (step^[n] config).state.sink.written.size := by
    rw [written, ByteArray.size_append]
    exact Nat.add_lt_add_left excess _
  rcases exists_last_within first tooMuch with ⟨k, earlier, within, beyond⟩
  have busy : (step^[k] config).isDone = false := by
    by_contra done
    rw [Function.iterate_succ_apply', step_of_isDone (Bool.not_eq_false _ ▸ done)] at beyond
    exact absurd within (Nat.not_le.mpr beyond)
  rcases overfills free within beyond (bottom k busy) with ⟨value, line, pending, below, focus, enough, reaches⟩
  refine ⟨k, value, line, pending, below, focus, within, beyond, enough, ?_⟩
  rw [reaches, extract_written written earlier (Nat.le_of_lt beyond), sink_of_unlimited unlimited]

end Config

end ScopedScript

import ScopedScript.Proofs.Machine.PrintStatements
import ScopedScript.Proofs.Machine.SinkRoom
import ScopedScript.Proofs.Sessions.Elsewhere
import ScopedScript.Proofs.Sessions.Restored
namespace ScopedScript

/-!
# Sinks that get full

A sink that takes only so many bytes more cuts off what a unit prints, and nothing else happens to the unit.
If all of it fits, the unit runs as with unlimited room.  Otherwise the sink keeps exactly the bytes for which
it had room, and the unit fails with the line that did not fit any more: at the `print` statement that would
have printed it, and with everything bound as it was when the line was about to be printed.
-/

namespace Session

/-- The same session with another sink. -/
def printingTo (session : Session) (sink : Sink) : Session := ⟨{ session.state with sink }, session.next⟩

variable {session after : Session} {source : String} {program : List Stmt}

theorem accept_printingTo (accepted : session.accept source = (after, .ok program)) (sink : Sink) :
    (session.printingTo sink).accept source = (after.printingTo sink, .ok program) :=
  accept_transferred accepted ⟨id, fun _ => sink⟩

theorem launch_printingTo (after : Session) (program : List Stmt) (before : ByteArray) (n : Nat) :
    ((after.printingTo ⟨before, none, false⟩).state.launch program).transferred (.capped (before.size + n)) =
      (after.printingTo ⟨before, some n, false⟩).state.launch program := by
  have room : Sink.capped ⟨before, none, false⟩ (before.size + n) = ⟨before, some n, false⟩ := by
    rw [Sink.capped, Nat.add_sub_cancel_left]
  exact congrArg (fun sink => (after.printingTo sink).state.launch program) room

end Session

open Config (step)

/-- A sink in which everything fits makes no difference. -/
theorem Session.run_of_fitting {session after : Session} {source : String} {program : List Stmt}
    {before printed : ByteArray} {fuel n : Nat} (accepted : session.accept source = (after, .ok program))
    (written : ((session.printingTo ⟨before, none, false⟩).run fuel source).1.state.sink =
      ⟨before ++ printed, none, false⟩) (fits : printed.size ≤ n) :
    (session.printingTo ⟨before, some n, false⟩).run fuel source =
      (((session.printingTo ⟨before, none, false⟩).run fuel source).1.printingTo
          ⟨before ++ printed, some (n - printed.size), false⟩,
        ((session.printingTo ⟨before, none, false⟩).run fuel source).2) := by
  rw [run_of_accepted (accept_printingTo accepted _)] at written ⊢
  rw [run_of_accepted (accept_printingTo accepted _), ← launch_printingTo]
  have within : (step^[fuel] ((after.printingTo ⟨before, none, false⟩).state.launch program)).state.sink.written.size ≤
      before.size + n := by
    have size := congrArg (fun sink => sink.written.size) written
    rw [ByteArray.size_append] at size
    exact size.trans_le (Nat.add_le_add_left fits _)
  have room : Sink.capped ⟨before ++ printed, none, false⟩ (before.size + n) =
      ⟨before ++ printed, some (n - printed.size), false⟩ := by
    rw [Sink.capped, ByteArray.size_append, Nat.add_sub_add_left]
  rw [Config.iterate_step_capped rfl within]
  refine ((after.printingTo ⟨before, none, false⟩).conclude_transferred _ rfl).trans (Prod.ext ?_ rfl)
  change Session.printingTo _ (Sink.capped _ _) = _
  rw [written, room]

/-- A sink in which not everything fits is the end of its unit, at the line that does not fit any more. -/
theorem Session.run_of_overfull {session after : Session} {source : String} {program : List Stmt}
    {before printed : ByteArray} {fuel n : Nat} (reached : session.Reached)
    (accepted : session.accept source = (after, .ok program))
    (written : ((session.printingTo ⟨before, none, false⟩).run fuel source).1.state.sink =
      ⟨before ++ printed, none, false⟩) (excess : n < printed.size) :
    let moment k := step^[k] ((after.printingTo ⟨before, none, false⟩).state.launch program)
    ∃ k value line pending below,
      (moment k).focus = .value value (.print line pending below) ∧
      (moment k).state.sink.written.size ≤ before.size + n ∧
      before.size + n < (moment (k + 1)).state.sink.written.size ∧
      ∃ enough, ∀ more ≥ enough, (session.printingTo ⟨before, some n, false⟩).run more source =
        (⟨({ (moment k).state with sink := ⟨before ++ printed.extract 0 n, some 0, false⟩ } : State).movedTo
            ⟨globalScope, 0⟩, after.next⟩, .failed (.runtime ⟨.output Sink.fullReason, line⟩)) := by
  intro moment
  rw [run_of_accepted (accept_printingTo accepted _)] at written
  have location : after.state.location = ⟨globalScope, 0⟩ := reached.location_of_accepted accepted
  have bottom : ∀ k, (moment k).isDone = false →
      (Waiting.flow .bottom).trail ⟨globalScope, 0⟩ <:+ (moment k).trail :=
    fun _ => State.bottom_of_busy _ location
  rcases Config.truncates rfl (congrArg Sink.written written) excess bottom with
    ⟨k, value, line, pending, below, focus, within, beyond, enough, reaches⟩
  rw [launch_printingTo] at reaches
  refine ⟨k, value, line, pending, below, focus, within, beyond, enough, ?_⟩
  exact run_of_unwound (accept_printingTo accepted _) reaches

/-- A sink that gets full only truncates.

Let a unit run for any time with a sink that takes everything, and let `printed` be what it has printed by then.
With a sink that takes so many bytes more and then nothing, there are two cases.  Either `printed` fits, and the
run has left and reported the same by then.  Or the sink ends up with as much of `printed` as fits, and the unit
fails with the line of the `print` statement that printed the first byte that does not: the bindings and all
scopes are what they were in the unlimited run when the value with that byte was about to be printed. -/
theorem full_sink_truncates {session after : Session} {source : String} {program : List Stmt}
    (reached : session.Reached) (accepted : session.accept source = (after, .ok program)) (before : ByteArray)
    (fuel : Nat) :
    let unlimited := (session.printingTo ⟨before, none, false⟩).run fuel source
    let moment k := step^[k] ((after.printingTo ⟨before, none, false⟩).state.launch program)
    ∃ printed, unlimited.1.state.sink = ⟨before ++ printed, none, false⟩ ∧ ∀ n,
      (printed.size ≤ n → (session.printingTo ⟨before, some n, false⟩).run fuel source =
        (unlimited.1.printingTo ⟨before ++ printed, some (n - printed.size), false⟩, unlimited.2)) ∧
      (n < printed.size → ∃ k value line pending below,
        (moment k).focus = .value value (.print line pending below) ∧
        (∃ m < k, ∃ values, (moment m).focus = .execute (.print line values) below) ∧
        (moment k).state.sink.written.size ≤ before.size + n ∧
        before.size + n < (moment (k + 1)).state.sink.written.size ∧
        ∃ enough, ∀ more ≥ enough, (session.printingTo ⟨before, some n, false⟩).run more source =
          (⟨({ (moment k).state with sink := ⟨before ++ printed.extract 0 n, some 0, false⟩ } : State).movedTo
              ⟨globalScope, 0⟩, after.next⟩, .failed (.runtime ⟨.output Sink.fullReason, line⟩))) := by
  intro unlimited moment
  have ran : unlimited = (after.printingTo ⟨before, none, false⟩).conclude (moment fuel) :=
    Session.run_of_accepted (Session.accept_printingTo accepted _) fuel
  let start := (after.printingTo ⟨before, none, false⟩).state.launch program
  obtain ⟨printed, written⟩ := Config.precedes_iterate_step start (Nat.zero_le fuel)
  have sink : unlimited.1.state.sink = ⟨before ++ printed, none, false⟩ := by
    have free := Config.sink_of_unlimited (rfl : start.state.sink = ⟨before, none, false⟩) fuel
    rw [written] at free
    rw [ran]
    exact free
  have nothing : ∀ began, start.focus.Prints began := fun _ => trivial
  refine ⟨printed, sink, fun n => ⟨Session.run_of_fitting accepted sink, fun excess => ?_⟩⟩
  rcases Session.run_of_overfull reached accepted sink excess with
    ⟨k, value, line, pending, below, focus, within, beyond, cutOff⟩
  have statement := Config.exists_print_statement nothing focus
  exact ⟨k, value, line, pending, below, focus, statement, within, beyond, cutOff⟩

/-- A function that prints two lines from inside of a loop, where the second one does not fit. -/
theorem full_sink_truncates_inside :
    let session := Session.start {} {} []
    let unit := "var on = true; fun f(x) \x7b\nwhile (on) \x7b print x, \"cd\"; on = false; \x7d\x7d\nf(\"ab\");"
    let program : List Stmt :=
      [.declare ⟨"on", 1⟩ (some (.constant (.truth true))),
        .function ⟨"f", 1⟩ [⟨"x", 1⟩]
          [.whileLoop (.variable 0 ⟨"on", 2⟩)
            (.block [.print 2 [.variable 1 ⟨"x", 2⟩, .constant (.text "cd")],
              .expression (.assign 3 ⟨"on", 2⟩ (.constant (.truth false)))])],
        .expression (.call (.variable 4 ⟨"f", 3⟩) 3 [.constant (.text "ab")])]
    let after := (session.accept unit).1
    let moment k := step^[k] ((after.printingTo ⟨.empty, none, false⟩).state.launch program)
    session.Reached ∧ session.accept unit = (after, .ok program) ∧
      ∃ printed : ByteArray, printed.size = 6 ∧ ∃ k value pending below,
        (moment k).focus = .value value (.print 2 pending below) ∧
        ∃ enough, ∀ more ≥ enough, (session.printingTo ⟨.empty, some 4, false⟩).run more unit =
          (⟨({ (moment k).state with sink := ⟨.empty ++ printed.extract 0 4, some 0, false⟩ } : State).movedTo
              ⟨globalScope, 0⟩, after.next⟩, .failed (.runtime ⟨.output Sink.fullReason, 2⟩)) := by
  intro session unit program after moment
  have reached : session.Reached := .start _ {} []
  have accepted : session.accept unit = (after, .ok program) := by
    have read : (session.accept unit).2 = .ok program := by
      unfold session unit program
      simp only [Session.accept, Session.read, readProgram, tokenize_eq]
      cbv
    exact Prod.ext rfl read
  have size : ((session.printingTo ⟨.empty, none, false⟩).run 80 unit).1.state.sink.written.size = 6 := by
    unfold session unit
    simp only [Session.run, Session.accept, Session.read, readProgram, tokenize_eq]
    cbv
  have failed : ((session.printingTo ⟨.empty, some 4, false⟩).run 80 unit).2 =
      .failed (.runtime ⟨.output Sink.fullReason, 2⟩) := by
    unfold session unit
    simp only [Session.run, Session.accept, Session.read, readProgram, tokenize_eq]
    cbv
  have ended : ((session.printingTo ⟨.empty, some 4, false⟩).run 80 unit).2 ≠ .unfinished := by
    rw [failed]
    intro impossible
    cases impossible
  rcases full_sink_truncates reached accepted .empty 80 with ⟨printed, sink, byRoom⟩
  rw [sink, ByteArray.size_append] at size
  have six : printed.size = 6 := (Nat.zero_add _).symm.trans size
  rcases (byRoom 4).2 (by rw [six]; decide) with ⟨k, value, line, pending, below, focus, -, -, -, enough, runs⟩
  -- Both runs have ended, so they have ended alike.
  have same := (runs _ (Nat.le_max_left enough 80)).symm.trans
    (Session.run_eq_of_le ended (Nat.le_max_right enough 80))
  cases (congrArg Prod.snd same).trans failed
  exact ⟨reached, accepted, printed, six, k, value, pending, below, focus, enough, runs⟩

end ScopedScript

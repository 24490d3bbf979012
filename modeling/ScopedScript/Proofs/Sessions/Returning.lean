import Mathlib
import ScopedScript.Proofs.Machine.InOrder
import ScopedScript.Proofs.Machine.ReturnPaths
import ScopedScript.Proofs.Sessions.RootedScopes
namespace ScopedScript

/-!
# Where `return`s go in a session

The scope analysis only looks at whether a `return` stands inside of a function, and the grammar only at what a
`for` begins with.  That is enough for every run of every unit of a session: no `return` leaves a statement
of the top level, so a program executes its statements in order until one fails; none comes out of what a
`for` begins with, where it would be lost; and inside of a call every `return` ends the call with its value.
-/

theorem Stmt.returns_of_mem {s : Stmt} : ∀ {ss : List Stmt}, returnsAny ss = false → s ∈ ss → s.returns = false
  | first :: rest, noReturn, member => by
      rw [returnsAny, Bool.or_eq_false_iff] at noReturn
      rcases List.mem_cons.mp member with rfl | later
      · exact noReturn.1
      · exact returns_of_mem noReturn.2 later

namespace State

variable {state last middle : State} {s : Stmt} {program before rest : List Stmt} {references : List Reference}
  {ending : Ending Flow} {fuel : Nat}

/-- A statement outside of functions does not end with a `return`. -/
theorem execute_ne_returned (noReturn : s.returns = false) (state : State) (fuel : Nat) (result : Value) :
    (state.execute fuel s).2 ≠ .done (.returned result) := by
  intro ended
  have contained : (Focus.execute s .bottom).Contained := by
    refine ⟨fun returns => ?_, trivial⟩
    rw [noReturn] at returns
    cases returns
  rw [execute_eq] at ended
  cases Config.flow_normal_of_contained contained (Config.flowEnding_eq_done ended)

/-- An accepted program executes its statements in order. -/
theorem inOrder_of_interpret (resolved : resolve program = .ok references)
    (ended : (state.interpret fuel program).2 ≠ .unfinished) :
    ∃ ending, state.InOrder program (state.interpret fuel program).1 ending ∧
      (state.interpret fuel program).2 = (state.interpret fuel program).1.flushed ending := by
  rw [interpret_eq] at ended ⊢
  refine ⟨_, inOrder_of_launch (fun unfinished => ended ?_) (fun result returned => ?_), rfl⟩
  · rw [unfinished]
    rfl
  · cases Config.flow_normal_of_resolved resolved (Config.flowEnding_eq_done returned)

theorem InOrder.interpret (inOrder : state.InOrder program last ending) :
    ∃ fuel, state.interpret fuel program = (last, last.flushed ending) := by
  rcases inOrder.launch with ⟨fuel, rfl, rfl⟩
  exact ⟨fuel, interpret_eq state fuel program⟩

/-- Statements that have run to their ends are followed by the next ones, whether these end or not. -/
theorem InOrder.launch_append (inOrder : state.InOrder before middle (.done .normal)) (rest : List Stmt) :
    ∃ n, Config.step^[n] (state.launch (before ++ rest)) = middle.launch rest := by
  rcases inOrder.launch with ⟨n, rfl, normal⟩
  have ended := Config.isDone_of_flowEnding (by rw [normal]; nofun)
  rcases Config.launch_append before ended with ⟨k, follows⟩
  exact ⟨k, (follows rest).trans (Config.followedBy_of_normal (Config.flowEnding_eq_done normal) rest)⟩

end State

open Config (step) in
/-- No `return` is lost and none leaks.  The statements of a unit do not end with one, so the unit is what its
statements do in order; neither does what a `for` begins with; and in every call they do what they should. -/
theorem returns_delivered {session after : Session} {source : String} {program : List Stmt}
    (reached : session.Reached) (accepted : session.accept source = (after, .ok program)) :
    (∀ s ∈ program, ∀ (state : State) fuel result, (state.execute fuel s).2 ≠ .done (.returned result)) ∧
    (∀ fuel, (after.state.interpret fuel program).2 ≠ .unfinished → ∃ ending,
      after.state.InOrder program (after.state.interpret fuel program).1 ending ∧
        (after.state.interpret fuel program).2 = (after.state.interpret fuel program).1.flushed ending) ∧
    (∀ last ending, after.state.InOrder program last ending →
      ∃ fuel, after.state.interpret fuel program = (last, last.flushed ending)) ∧
    (∀ before rest middle, program = before ++ rest → after.state.InOrder before middle (.done .normal) →
      ∃ n, step^[n] (after.state.launch program) = middle.launch rest) ∧
    (∀ n flow loop below, (step^[n] (after.state.launch program)).focus = .flow flow (.loopStart loop below) →
      flow = .normal) ∧
    ∀ n body caller stack,
      (step^[n] (after.state.launch program)).focus = .executeAll body (.leaveCall caller stack) →
      (step^[n] (after.state.launch program)).Delivers caller stack := by
  rcases Session.accept_ok_iff.mp accepted with ⟨_, references, _, resolved, _⟩
  have orderly := Session.orderly_of_accepted reached.orderly accepted
  refine ⟨fun s member => ?_, fun fuel ended => ?_, fun last ending inOrder => inOrder.interpret, ?_, ?_, ?_⟩
  · exact State.execute_ne_returned (Stmt.returns_of_mem (returnsAny_of_resolved resolved) member)
  · exact State.inOrder_of_interpret resolved ended
  · rintro before rest middle rfl inOrder
    exact inOrder.launch_append rest
  · intro n flow loop below begun
    have held := (orderly n).2
    rw [begun] at held
    cases flow with
    | normal => rfl
    | returned result => cases held.2.1
  · exact fun n body caller stack begins => (orderly n).delivers begins

open Config (step) in
/-- A call out of which a `return` goes through a block and a loop. -/
theorem returns_delivered_fromLoop :
    let session := Session.start {} {} []
    let unit := "fun f() \x7b for (;;) \x7b return \"x\"; \x7d \x7d f();"
    let leaving := Stmt.forLoop none none none (.block [.giveBack 1 (some (.constant (.text "x")))])
    let program : List Stmt :=
      [.function ⟨"f", 1⟩ [] [leaving], .expression (.call (.variable 0 ⟨"f", 1⟩) 1 [])]
    let after := (session.accept unit).1
    let start := step^[8] (after.state.launch program)
    let stack := ValueStack.discard (.sequence [] .bottom)
    session.Reached ∧ session.accept unit = (after, .ok program) ∧
      start.focus = .executeAll [leaving] (.leaveCall 0 stack) ∧
      (∀ fuel state result, (State.execute fuel state (.expression (.call (.variable 0 ⟨"f", 1⟩) 1 []))).2 ≠
        .done (.returned result)) ∧
      (∃ ending, after.state.InOrder program (after.state.interpret 40 program).1 ending) ∧
      ∃ m, start.EndsAt (.flow (.leaveCall 0 stack)) m ∧
        (step^[m + 1] start).focus = .value (.text "x") stack := by
  intro session unit leaving program after start stack
  have reached : session.Reached := .start {} {} []
  have accepted : session.accept unit = (after, .ok program) := by
    have read : (session.accept unit).2 = .ok program := by
      unfold session unit program leaving
      simp only [Session.accept, Session.read, readProgram, tokenize_eq]
      cbv
    exact Prod.ext rfl read
  have begins : start.focus = .executeAll [leaving] (.leaveCall 0 stack) := by
    unfold start after session unit program leaving stack
    simp only [Session.accept, Session.read, readProgram, tokenize_eq]
    cbv
  have ended : (after.state.interpret 40 program).2 = .done () := by
    unfold after session unit program leaving
    simp only [Session.accept, Session.read, readProgram, tokenize_eq]
    cbv
  -- From here on, what happens next does not depend on the state.
  have whole : ∃ state, start = ⟨state, .executeAll [leaving] (.leaveCall 0 stack)⟩ := by
    rw [← begins]
    exact ⟨start.state, rfl⟩
  have gives : (step^[6] start).focus.GivesBack (.leaveCall 0 stack) (.text "x") := by
    rcases whole with ⟨state, same⟩
    rw [same]
    exact .result rfl
  have running : ∀ earlier < 6, (step^[earlier] start).focus.ends = false := by
    rcases whole with ⟨state, same⟩
    rw [same]
    intro earlier before
    interval_cases earlier <;> rfl
  rcases returns_delivered reached accepted with ⟨contained, inOrder, -, -, -, calls⟩
  rcases (calls 8 _ 0 stack begins).taken 6 (.text "x")
    (fun earlier before ended => Bool.false_ne_true ((running earlier before).symm.trans ended.1)) gives
    with ⟨m, -, ends, -, value⟩
  have finished : (after.state.interpret 40 program).2 ≠ .unfinished := by
    rw [ended]
    intro unfinished
    cases unfinished
  rcases inOrder 40 finished with ⟨ending, executed, -⟩
  exact ⟨reached, accepted, begins, fun fuel state => contained _ (by simp [program]) state fuel,
    ⟨ending, executed⟩, m, ends, value⟩

end ScopedScript

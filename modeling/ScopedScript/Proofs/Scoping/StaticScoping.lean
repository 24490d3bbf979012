import Mathlib
import ScopedScript.Proofs.Lexing.Coverage
import ScopedScript.Proofs.Scoping.Sessions
namespace ScopedScript

/-!
# Static scoping

The scope analysis and the step machine together do what the evaluator with cells says: for every
sequence of texts, every unit that ends has the same output and the same result on both sides, a unit
that does not end on one side does not end on the other, and meanwhile neither prints anything that the
other does not come to print.
-/

namespace Session.Matches

variable {session : Session} {reference : Cells.Session}

/-- With equal fuel the evaluator has come as far as the machine, or further. -/
theorem history_continues (matched : session.Matches reference) (steps : Nat) (units : List String) :
    (session.history steps units).Continues (reference.history steps units) := by
  induction units generalizing session reference with
  | nil => exact .nil
  | cons source rest inductionHypothesis =>
      unfold Session.history Cells.Session.history
      rcases matched.run_follows steps source with
        ⟨n, after, matchedAfter, ended, runs⟩ | ⟨unfinished, m, least, running, printed⟩
      · rw [History.of_ended ended]
        by_cases endedToo : (session.run steps source).2 = .unfinished
        · have more := session.precedes_run source (Nat.le_max_left steps n)
          rw [runs _ (Nat.le_max_right steps n), matchedAfter.sink] at more
          rw [History.of_unfinished endedToo]
          exact .running more
        · have same := Session.run_eq_of_le endedToo (Nat.le_max_left steps n)
          rw [runs _ (Nat.le_max_right steps n)] at same
          rw [History.of_ended endedToo, ← same, matchedAfter.sink]
          exact .ended (inductionHypothesis matchedAfter)
      · have more := session.precedes_run source least
        rw [printed] at more
        rw [History.of_unfinished unfinished,
          History.of_unfinished (Session.run_unfinished_of_le running least)]
        exact .running more

/-- With enough steps the machine comes as far as the evaluator, or further. -/
theorem continues_history (matched : session.Matches reference) (fuel : Nat) (units : List String) :
    ∃ enough, ∀ steps, enough ≤ steps →
      (reference.history fuel units).Continues (session.history steps units) := by
  induction units generalizing session reference with
  | nil => exact ⟨0, fun _ _ => .nil⟩
  | cons source rest inductionHypothesis =>
      unfold Session.history Cells.Session.history
      rcases matched.run_follows fuel source with
        ⟨n, after, matchedAfter, ended, runs⟩ | ⟨unfinished, m, least, running, printed⟩
      · rcases inductionHypothesis matchedAfter with ⟨enough, continues⟩
        refine ⟨max n enough, fun steps most => ?_⟩
        have same := runs steps (Nat.le_trans (Nat.le_max_left n enough) most)
        have endedToo : (session.run steps source).2 ≠ .unfinished := by
          rw [same]
          exact ended
        rw [History.of_ended ended, History.of_ended endedToo, same, matchedAfter.sink]
        exact .ended (continues steps (Nat.le_trans (Nat.le_max_right n enough) most))
      · refine ⟨m, fun steps most => ?_⟩
        have more := session.precedes_run source most
        rw [printed] at more
        rw [History.of_unfinished unfinished]
        by_cases endedToo : (session.run steps source).2 = .unfinished
        · rw [History.of_unfinished endedToo]
          exact .running more
        · rw [History.of_ended endedToo]
          exact .running more

end Session.Matches

/-- Static scoping is implemented correctly.  Whatever units are run through a session, the machine and
the evaluator with cells have the same histories of ended units; and of units that do not end, each comes
to print what the other has printed. -/
theorem histories_agree (host : Host) (sink : Sink) (builtins : List Builtin) (units : List String) :
    (∀ history : History,
      (∃ steps, (Session.start host sink builtins).history steps units = history ∧ history.Ended) ↔
      (∃ fuel, (Cells.Session.start host sink builtins).history fuel units = history ∧
        history.Ended)) ∧
    (∀ steps, ∃ fuel, ((Session.start host sink builtins).history steps units).Continues
      ((Cells.Session.start host sink builtins).history fuel units)) ∧
    (∀ fuel, ∃ steps, ((Cells.Session.start host sink builtins).history fuel units).Continues
      ((Session.start host sink builtins).history steps units)) := by
  have matched := Session.matches_start host sink builtins
  refine ⟨fun history => ⟨?_, ?_⟩, ?_, ?_⟩
  · rintro ⟨steps, same, ended⟩
    have continues := matched.history_continues steps units
    rw [same] at continues
    exact ⟨steps, continues.eq_of_ended ended, ended⟩
  · rintro ⟨fuel, same, ended⟩
    rcases matched.continues_history fuel units with ⟨enough, continues⟩
    have continuesHere := continues enough (Nat.le_refl enough)
    rw [same] at continuesHere
    exact ⟨enough, continuesHere.eq_of_ended ended, ended⟩
  · exact fun steps => ⟨steps, matched.history_continues steps units⟩
  · intro fuel
    rcases matched.continues_history fuel units with ⟨enough, continues⟩
    exact ⟨enough, continues enough (Nat.le_refl enough)⟩

/-- A closure of a unit that failed half-way keeps the variable that was in sight where it was declared, and the
next unit shadows the name in vain. -/
theorem histories_agree_shadowed :
    let units := ["fun make() \x7b var a = \"outer\"; fun show() \x7b print a; \x7d return show; \x7d var show = make(); nil();",
      "\x7b var a = \"inner\"; show(); \x7d"]
    let history : History := [({}, .failed (.runtime ⟨.notCallable, 1⟩)), ({ written := "outer\n".toUTF8 }, .finished)]
    (Session.start {} {} []).history 70 units = history ∧
      ∃ fuel, (Cells.Session.start {} {} []).history fuel units = history := by
  intro units history
  have ran : (Session.start {} {} []).history 70 units = history := by
    unfold units history
    simp only [Session.history, History.of, Session.run, Session.accept, Session.read, readProgram, tokenize_eq]
    cbv
  have ended : history.Ended := by
    intro entry member
    rcases List.mem_pair.mp member with rfl | rfl <;> intro unfinished <;> cases unfinished
  rcases ((histories_agree {} {} [] units).1 history).mp ⟨70, ran, ended⟩ with ⟨fuel, same, -⟩
  exact ⟨ran, fuel, same⟩

end ScopedScript

import ScopedScript.Proofs.Machine.Output
import ScopedScript.Proofs.Scoping.CellEvaluator
namespace ScopedScript

/-!
# Sessions of the evaluator with cells

A unit is accepted or rejected as ever; then its statements are executed in order at the top level.  A
session of either kind turns texts into a history: what the sink held when each unit had ended and what
became of the unit.  A unit that does not end is the last one.
-/

/-- What the sink held after each unit and what became of the unit. -/
abbrev History := List (Sink × UnitResult)

namespace History

/-- The history of a session, up to the first unit that does not end. -/
def of {S : Type} (run : S → String → S × UnitResult) (sink : S → Sink) (session : S) :
    List String → History
  | [] => []
  | source :: rest =>
    match run session source with
    | (after, .unfinished) => [(sink after, .unfinished)]
    | (after, result) => (sink after, result) :: of run sink after rest

section

variable {S : Type} {run : S → String → S × UnitResult} {sink : S → Sink} {session : S}
  {source : String}

theorem of_ended (ended : (run session source).2 ≠ .unfinished) (rest : List String) :
    of run sink session (source :: rest) =
      (sink (run session source).1, (run session source).2) ::
        of run sink (run session source).1 rest := by
  rw [of]
  split
  · rename_i same
    rw [same] at ended
    exact absurd rfl ended
  · rename_i same
    rw [same]

theorem of_unfinished (unfinished : (run session source).2 = .unfinished) (rest : List String) :
    of run sink session (source :: rest) = [(sink (run session source).1, .unfinished)] := by
  rw [of]
  split
  · rename_i same
    rw [same]
  · rename_i another same
    rw [same] at unfinished
    exact absurd unfinished another

end

/-- Every unit has ended. -/
def Ended (history : History) : Prop := ∀ entry ∈ history, entry.2 ≠ .unfinished

/-- Another history shows the same for every unit that has ended, and at least the same output for a
unit that has not. -/
inductive Continues : History → History → Prop where
  | nil : Continues [] []
  | ended {sink : Sink} {result : UnitResult} {history later : History}
      (rest : Continues history later) : Continues ((sink, result) :: history) ((sink, result) :: later)
  | running {sink sinkLater : Sink} {result : UnitResult} {later : History}
      (printed : sink.Precedes sinkLater) :
      Continues [(sink, .unfinished)] ((sinkLater, result) :: later)

theorem Continues.trans {history middle later : History} (first : Continues history middle)
    (second : Continues middle later) : Continues history later := by
  induction first generalizing later with
  | nil => exact second
  | ended rest inductionHypothesis =>
      cases second with
      | ended restToo => exact .ended (inductionHypothesis restToo)
      | running printed =>
          cases rest
          exact .running printed
  | running printed =>
      cases second with
      | ended _ => exact .running printed
      | running printedToo => exact .running (printed.trans printedToo)

/-- Nothing is left to be continued once every unit has ended. -/
theorem Continues.eq_of_ended {history later : History} (continues : Continues history later)
    (ended : history.Ended) : later = history := by
  induction continues with
  | nil => rfl
  | ended rest inductionHypothesis =>
      rw [inductionHypothesis fun entry member => ended entry (List.mem_cons_of_mem _ member)]
  | running printed => exact absurd rfl (ended _ List.mem_cons_self)

/-- A unit that has ended is continued by one that shows the same. -/
theorem Continues.entry_eq {entry later : Sink × UnitResult} (continues : Continues [entry] [later])
    (ended : entry.2 ≠ .unfinished) : later = entry := by
  cases continues with
  | ended _ => rfl
  | running _ => exact absurd rfl ended

theorem Continues.entry_precedes {entry later : Sink × UnitResult} (continues : Continues [entry] [later]) :
    entry.1.Precedes later.1 := by
  cases continues with
  | ended _ => exact .refl _
  | running printed => exact printed

/-- Two units of which each comes as far as the other one, or further, come to the same end if they come to any, and
otherwise each prints what the other has printed. -/
theorem same_ends {unit unitToo : Nat → Sink × UnitResult}
    (forth : ∀ steps, ∃ more, Continues [unit steps] [unitToo more])
    (back : ∀ steps, ∃ more, Continues [unitToo steps] [unit more]) :
    (∀ sink result, result ≠ .unfinished →
      ((∃ steps, unit steps = (sink, result)) ↔ ∃ steps, unitToo steps = (sink, result))) ∧
    (∀ steps, ∃ more, (unit steps).1.Precedes (unitToo more).1) ∧
    (∀ steps, ∃ more, (unitToo steps).1.Precedes (unit more).1) := by
  refine ⟨fun sink result ended => ⟨?_, ?_⟩, fun steps => ?_, fun steps => ?_⟩
  · rintro ⟨steps, same⟩
    rcases forth steps with ⟨more, continues⟩
    rw [same] at continues
    exact ⟨more, continues.entry_eq ended⟩
  · rintro ⟨steps, same⟩
    rcases back steps with ⟨more, continues⟩
    rw [same] at continues
    exact ⟨more, continues.entry_eq ended⟩
  · exact (forth steps).imp fun _ continues => continues.entry_precedes
  · exact (back steps).imp fun _ continues => continues.entry_precedes

end History

namespace Cells

/-- What a session keeps between units. -/
structure Session where
  store : Store
  /-- The next free reference identity, which only the parser looks at. -/
  next : RefId := 0

namespace Store

/-- Bind a new function value at the top level. -/
def defineBuiltin (store : Store) (builtin : Builtin) : Store :=
  let value := Value.function store.identity (.builtin builtin)
  { store with globals := store.globals.insert builtin.name value, identity := store.identity + 1 }

/-- What became of a unit whose program has ended so.  The sink is flushed in the end. -/
def concluded (store : Store) : Outcome Flow → UnitResult
  | .done _ =>
    if store.sink.flushFails then .failed (.runtime ⟨.output Sink.flushReason, 0⟩) else .finished
  | .failed error => .failed (.runtime error)
  | .unfinished => .unfinished

end Store

namespace Session

/-- A session of the evaluator in which nothing has run. -/
def start (host : Host) (sink : Sink) (builtins : List Builtin) : Session :=
  { store := builtins.foldl Store.defineBuiltin { host, sink } }

/-- What is left of a session of the evaluator, and what became of the unit. -/
def conclude (next : RefId) (ended : Outcome Flow × Store) : Session × UnitResult :=
  (⟨ended.2, next⟩, ended.2.concluded ended.1)

/-- Run a text as the next unit. -/
def run (fuel : Nat) (session : Session) (source : String) : Session × UnitResult :=
  match readProgram source session.next with
  | .error error => (session, .rejected error)
  | .ok (program, next) =>
    match resolve program with
    | .error error => ({ session with next }, .rejected (.scope error))
    | .ok _ => conclude next (executeAll (execute fuel 0) .topLevel program session.store)

/-- The history of a session of the evaluator, with so much fuel for each unit. -/
def history (fuel : Nat) (session : Session) (units : List String) : History :=
  .of (run fuel) (·.store.sink) session units

end Session

end Cells

/-- The history of a session, with so many steps for each unit. -/
def Session.history (fuel : Nat) (session : Session) (units : List String) : History :=
  .of (run fuel) (·.state.sink) session units

end ScopedScript

import Mathlib
import ScopedScript.Proofs.Desugaring.Acceptance
import ScopedScript.Proofs.Desugaring.Simulation
import ScopedScript.Proofs.Scoping.AccessSafety
namespace ScopedScript

/-!
# A `for` means its `while`

A text is read, and in the program that comes of it some `for` statements are written as `while`.  The scope
analysis accepts both programs or none, and each of them gets a table of distances of its own, which differ:
in the body of a `while` everything outside is one scope further away.  Run in the same session, they print the
same and end in the same way.

The machine is not compared with itself.  Each of the two runs is followed by one of the evaluator with cells,
which has no distances, and the two runs of the evaluator follow each other.
-/

namespace Cells

/-- What can be seen of a program that the evaluator has run as a unit. -/
def shown (ended : Outcome Flow × Store) : Sink × UnitResult := (ended.2.sink, ended.2.concluded ended.1)

/-- With four times the fuel a program has come as far as a variant of it, or further. -/
theorem shown_continues {program unfolded : List Stmt} (varyAll : Stmt.VaryAll program unfolded) (fuel : Nat)
    (store : Store) :
    History.Continues [shown (executeAll (execute fuel 0) .topLevel program store)]
      [shown (executeAll (execute (4 * fuel) 0) .topLevel unfolded store)] := by
  have follows := following fuel (4 * fuel) (Nat.le_refl _)
  have leads := Leads.executeAll (follows.execute 0) varyAll .topLevel
  have attained := leads.attains store store (.refl store)
  generalize executeAll (execute fuel 0) .topLevel program store = ended at attained ⊢
  generalize executeAll (execute (4 * fuel) 0) .topLevel unfolded store = endedToo at attained ⊢
  cases attained with
  | @done flow flowToo left leftToo _ varies =>
      have same : shown (.done flowToo, leftToo) = shown (.done flow, left) := by
        simp only [shown, Store.concluded, varies.sink]
      rw [same]
      exact .ended .nil
  | @failed error left leftToo varies =>
      have same : shown (.failed error, leftToo) = shown (.failed error, left) := by
        simp only [shown, Store.concluded, varies.sink]
      rw [same]
      exact .ended .nil
  | running printed => exact .running printed

end Cells

namespace Session

/-- Run a program that has been read as the next unit, in at most so many steps. -/
def runProgram (fuel : Nat) (session : Session) (program : List Stmt) : Session × UnitResult :=
  match session.analyse program with
  | (session, .error error) => (session, .rejected error)
  | (session, .ok program) => session.conclude (Config.run fuel (session.state.launch program))

/-- What can be seen of a unit: what the sink holds, and what became of it. -/
def shown (ended : Session × UnitResult) : Sink × UnitResult := (ended.1.state.sink, ended.2)

variable {session after : Session} {reference : Cells.Session} {source : String} {next : RefId}
  {program unfolded : List Stmt} {references : List Reference}

/-- Reading changes nothing but the next free identity. -/
theorem exists_next_of_read (read : session.read source = (after, .ok program)) :
    ∃ next, readProgram source session.next = .ok (program, next) ∧ after = ⟨session.state, next⟩ := by
  unfold Session.read at read
  cases found : readProgram source session.next with
  | error error =>
      rw [found] at read
      cases read
  | ok result =>
      rcases result with ⟨tree, next⟩
      rw [found] at read
      cases read
      exact ⟨next, rfl, rfl⟩

/-- A text is run by reading it and running what has been read. -/
theorem run_of_read (read : session.read source = (after, .ok program)) (fuel : Nat) :
    session.run fuel source = after.runProgram fuel program := by
  rw [run, accept, read]
  rfl

theorem runProgram_of_resolved (resolved : resolve program = .ok references) (fuel : Nat) :
    let state := { session.state with distances := session.state.distances.recordAll references }
    session.runProgram fuel program =
      conclude ⟨state, session.next⟩ (Config.step^[fuel] (state.launch program)) := by
  rw [runProgram, analyse, resolved]
  dsimp only
  rw [Config.run_eq_iterate]

/-- With more steps a program has come as far as with fewer, or further. -/
theorem runProgram_continues (resolved : resolve program = .ok references) {n m : Nat} (later : n ≤ m) :
    History.Continues [shown (session.runProgram n program)] [shown (session.runProgram m program)] := by
  by_cases ended : (session.runProgram n program).2 = .unfinished
  · rw [shown, ended, shown]
    refine .running ?_
    rw [runProgram_of_resolved resolved, runProgram_of_resolved resolved]
    exact Config.precedes_iterate_step _ later
  · rw [runProgram_of_resolved resolved] at ended
    rw [runProgram_of_resolved resolved, runProgram_of_resolved resolved,
      Config.iterate_step_eq_of_le (isDone_of_concluded ended) later]
    exact .ended .nil

/-- A program that the grammar has, of which each reference has an identity of its own, not used before. -/
structure Fits (session : Session) (next : RefId) (program : List Stmt) : Prop where
  wellFormed : Stmt.AllWellFormed program
  distinct : (Stmt.refsOf program).Nodup
  bounds : ∀ ref ∈ Stmt.refsOf program, session.next ≤ ref ∧ ref < next
  later : session.next ≤ next

theorem fits_of_readProgram (read : readProgram source session.next = .ok (program, next)) :
    session.Fits next program := by
  rcases readProgram_ok read with ⟨rising, wellFormed⟩
  exact ⟨wellFormed, rising.nodup, fun _ => rising.bounds, rising.le⟩

/-- The references of a program stay the same when it desugars. -/
theorem Fits.desugar (fits : session.Fits next program) (desugar : Stmt.DesugarAll program unfolded) :
    session.Fits next unfolded := by
  have listed := Stmt.refsOf_perm_of_desugar desugar
  refine ⟨Stmt.allWellFormed_of_desugar desugar fits.wellFormed, listed.nodup_iff.mpr fits.distinct, ?_,
    fits.later⟩
  exact fun ref member => fits.bounds ref (listed.mem_iff.mp member)

/-- At some later time the machine shows what the evaluator has come to. -/
theorem Matches.exists_shown (matched : session.Matches reference) (fits : session.Fits next program)
    (resolved : resolve program = .ok references) (fuel : Nat) :
    ∃ steps, fuel ≤ steps ∧ shown (runProgram steps ⟨session.state, next⟩ program) =
      Cells.shown (Cells.executeAll (Cells.execute fuel 0) .topLevel program reference.store) := by
  rcases matched.recorded fits.wellFormed fits.distinct fits.bounds fits.later resolved with ⟨recorded, bound⟩
  rcases recorded.conclude_follows bound fuel rfl with
    ⟨n, after, matchedAfter, _, runs⟩ | ⟨unfinished, m, least, running, printed⟩
  · refine ⟨max fuel n, Nat.le_max_left fuel n, ?_⟩
    rw [runProgram_of_resolved resolved, runs _ (Nat.le_max_right fuel n), shown, matchedAfter.sink]
    rfl
  · refine ⟨m, least, ?_⟩
    rw [runProgram_of_resolved resolved, shown, printed, running, ← unfinished]
    rfl

/-- A program comes as far as another one, or further, when it does so in the evaluator. -/
theorem Matches.continues {programToo : List Stmt} (matched : session.Matches reference)
    (fits : session.Fits next program) (fitsToo : session.Fits next programToo)
    (accepted : ∃ references, resolve program = .ok references)
    (acceptedToo : ∃ references, resolve programToo = .ok references)
    (ahead : ∀ fuel, ∃ more, History.Continues
      [Cells.shown (Cells.executeAll (Cells.execute fuel 0) .topLevel program reference.store)]
      [Cells.shown (Cells.executeAll (Cells.execute more 0) .topLevel programToo reference.store)]) (steps : Nat) :
    ∃ more, History.Continues [shown (runProgram steps ⟨session.state, next⟩ program)]
      [shown (runProgram more ⟨session.state, next⟩ programToo)] := by
  rcases accepted with ⟨references, resolved⟩
  rcases acceptedToo with ⟨referencesToo, resolvedToo⟩
  rcases matched.exists_shown fits resolved steps with ⟨n, later, same⟩
  rcases ahead steps with ⟨more, continues⟩
  rcases matched.exists_shown fitsToo resolvedToo more with ⟨m, _, sameToo⟩
  refine ⟨m, (runProgram_continues resolved later).trans ?_⟩
  rw [same, sameToo]
  exact continues

/-- What a program comes to, a variant of it comes to as well. -/
theorem Matches.variant_continues (matched : session.Matches reference) (fits : session.Fits next program)
    (fitsToo : session.Fits next unfolded) (varyAll : Stmt.VaryAll program unfolded)
    (accepted : ∃ references, resolve program = .ok references)
    (acceptedToo : ∃ references, resolve unfolded = .ok references) (steps : Nat) :
    ∃ more, History.Continues [shown (runProgram steps ⟨session.state, next⟩ program)]
      [shown (runProgram more ⟨session.state, next⟩ unfolded)] :=
  matched.continues fits fitsToo accepted acceptedToo
    (fun fuel => ⟨4 * fuel, Cells.shown_continues varyAll fuel reference.store⟩) steps

end Session

/-- A `for` means its `while`.  Whichever `for` statements of a program are written as `while`, the scope analysis
accepts the new program exactly when it accepts the old one.  Then they come to the same end, with the same output
and the same result; and when they come to no end, each prints what the other has printed. -/
theorem for_means_while {session after : Session} {source : String} {program unfolded : List Stmt}
    (reached : session.Reached) (read : session.read source = (after, .ok program))
    (desugar : Stmt.DesugarAll program unfolded) :
    let original steps := Session.shown (session.run steps source)
    let rewritten steps := Session.shown (after.runProgram steps unfolded)
    ((∃ references, resolve program = .ok references) ↔ ∃ references, resolve unfolded = .ok references) ∧
    ((∃ references, resolve program = .ok references) →
      (∀ sink result, result ≠ .unfinished →
        ((∃ steps, original steps = (sink, result)) ↔ ∃ steps, rewritten steps = (sink, result))) ∧
      (∀ steps, ∃ more, (original steps).1.Precedes (rewritten more).1) ∧
      (∀ steps, ∃ more, (rewritten steps).1.Precedes (original more).1)) := by
  intro original rewritten
  rcases reached.exists_matches with ⟨reference, matched⟩
  have runs := Session.run_of_read read
  rcases Session.exists_next_of_read read with ⟨next, found, rfl⟩
  have fits := Session.fits_of_readProgram found
  have fitsToo := fits.desugar desugar
  have sameAccepted := resolve_ok_iff_of_desugar fits.wellFormed desugar
  refine ⟨sameAccepted, fun accepted => ?_⟩
  have acceptedToo := sameAccepted.mp accepted
  rcases Stmt.varyAll_of_desugar desugar fits.wellFormed with ⟨there, back⟩
  have forth (steps : Nat) : ∃ more, History.Continues [original steps] [rewritten more] := by
    unfold original rewritten
    rw [runs]
    exact matched.variant_continues fits fitsToo there accepted acceptedToo steps
  have converse (steps : Nat) : ∃ more, History.Continues [rewritten steps] [original more] := by
    unfold original rewritten
    simp only [runs]
    exact matched.variant_continues fitsToo fits back acceptedToo accepted steps
  refine ⟨fun sink result ended => ⟨?_, ?_⟩, fun steps => ?_, fun steps => ?_⟩
  · rintro ⟨steps, same⟩
    rcases forth steps with ⟨more, continues⟩
    rw [same] at continues
    exact ⟨more, continues.entry_eq ended⟩
  · rintro ⟨steps, same⟩
    rcases converse steps with ⟨more, continues⟩
    rw [same] at continues
    exact ⟨more, continues.entry_eq ended⟩
  · exact (forth steps).imp fun _ continues => continues.entry_precedes
  · exact (converse steps).imp fun _ continues => continues.entry_precedes

/-- A closure is made in the body and called before the increment, which fails. -/
theorem for_means_while_failedIncrement :
    let session := Session.start {} {} []
    let unit := "for (var a = true; a;\na()) \x7b fun f() \x7b print a; \x7d f(); \x7d"
    let after := (session.read unit).1
    let first := Stmt.declare ⟨"a", 1⟩ (some (.constant (.truth true)))
    let condition := Expr.variable 0 ⟨"a", 1⟩
    let increment := Expr.call (.variable 1 ⟨"a", 2⟩) 2 []
    let body := Stmt.block [
      .function ⟨"f", 2⟩ [] [.print 2 [.variable 2 ⟨"a", 2⟩]],
      .expression (.call (.variable 3 ⟨"f", 2⟩) 2 [])]
    let program := [Stmt.forLoop (some first) (some condition) (some increment) body]
    let unfolded := [Stmt.asWhile (some first) (some condition) (some increment) body]
    session.Reached ∧ session.read unit = (after, .ok program) ∧ Stmt.DesugarAll program unfolded ∧
      (∃ references, resolve unfolded = .ok references) ∧
      ∃ steps, Session.shown (after.runProgram steps unfolded) =
        ({ written := "true\n".toUTF8 }, .failed (.runtime ⟨.notCallable, 2⟩)) := by
  intro session unit after first condition increment body program unfolded
  have reached : session.Reached := .start {} {} []
  have read : session.read unit = (after, .ok program) := by
    refine Prod.ext rfl ?_
    unfold session unit
    simp only [Session.read, readProgram, tokenize_eq]
    cbv
  have desugar : Stmt.DesugarAll program unfolded :=
    .cons (.rewritten _ _ _ (.block (.cons (.function _ _ (.cons (.print _ _) .nil))
      (.cons (.expression _) .nil)))) .nil
  have accepted : ∃ references, resolve program = .ok references := ⟨_, rfl⟩
  have shown : Session.shown (session.run 60 unit) =
      ({ written := "true\n".toUTF8 }, .failed (.runtime ⟨.notCallable, 2⟩)) := by
    unfold session unit
    simp only [Session.run, Session.accept, Session.read, readProgram, tokenize_eq]
    cbv
  rcases for_means_while reached read desugar with ⟨sameAccepted, runs⟩
  refine ⟨reached, read, desugar, sameAccepted.mp accepted, ?_⟩
  refine ((runs accepted).1 _ _ ?_).mp ⟨60, shown⟩
  intro impossible
  cases impossible

end ScopedScript

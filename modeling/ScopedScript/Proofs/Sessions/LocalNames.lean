import Mathlib
import ScopedScript.Proofs.Renaming.Acceptance
import ScopedScript.Proofs.Renaming.Simulation
import ScopedScript.Proofs.Renaming.Uses
import ScopedScript.Proofs.Sessions.LoopForms
namespace ScopedScript

/-!
# Local names do not matter

A local variable or a parameter of an accepted program gets a name that stands nowhere in the program, and so do the
references that the scope analysis binds to it.  The new program is accepted as well, and everything that is found
out about its references is what has been found out before.  In a fresh session both programs print the same and end
in the same way.

At run time the scopes are keyed by names, while references are placed by distance.  Neither is looked at here: each
run is followed by one of the evaluator with cells, which has neither, and there both programs run in parallel.
-/

namespace Cells

variable {store : Store} {program programToo : List Stmt} {after : Pairing}

/-- Before any function has been declared, a store is its own counterpart. -/
theorem counterpart_start (host : Host) (sink : Sink) (builtins : List Builtin) :
    (Session.start host sink builtins).store.Counterpart [] (Session.start host sink builtins).store := by
  have bare : Store.Counterpart [] { host, sink } { host, sink } :=
    ⟨rfl, fun _ => .none, rfl, fun _ => .nil, rfl, rfl, nofun, rfl, rfl⟩
  have defined : ∀ store : Store, store.Counterpart [] store →
      (builtins.foldl Store.defineBuiltin store).Counterpart [] (builtins.foldl Store.defineBuiltin store) := by
    induction builtins with
    | nil => exact fun _ same => same
    | cons builtin rest inductionHypothesis =>
        intro store same
        have value : Value.Counterpart [] (.function store.identity (.builtin builtin)) _ := .plain rfl
        have next := same.setGlobal builtin.name value
        exact inductionHypothesis _ { next with identity := rfl }
  exact defined _ bare

/-- Whatever the fuel, alpha-equivalent programs show the same. -/
theorem shown_alpha (alpha : Stmt.AlphaAll [] program programToo after) (same : store.Counterpart [] store)
    (fuel : Nat) :
    shown (executeAll (execute fuel 0) .topLevel programToo store) =
      shown (executeAll (execute fuel 0) .topLevel program store) := by
  have parallel := Parallel.executeAll ((alongside fuel).execute 0) .topLevel alpha []
  have ends := parallel [] List.prefix_rfl store store same
  generalize executeAll (execute fuel 0) .topLevel program store = ended at ends ⊢
  generalize executeAll (execute fuel 0) .topLevel programToo store = endedToo at ends ⊢
  cases ends with
  | done _ _ stores => simp only [shown, Store.concluded, stores.sink]
  | failed error sink => simp only [shown, Store.concluded, sink]
  | unfinished sink => simp only [shown, Store.concluded, sink]

end Cells

/-- Renaming a local variable of an accepted program with all its uses gives an alpha-equivalent program. -/
theorem alpha_of_resolve {program : List Stmt} {references : List Reference} {scope : Position}
    {outer : List Position} {kind : DeclarationKind} {target : Identifier} {newName : String}
    (wellFormed : Stmt.AllWellFormed program) (distinct : (Stmt.refsOf program).Nodup)
    (accepted : resolve program = .ok references)
    (declared : ⟨scope :: outer, .declares kind target⟩ ∈ sites program) (notFunction : kind ≠ .function)
    (unused : newName ∉ namesOf program) :
    let distances := Distances.empty.recordAll references
    ∃ after, Stmt.AlphaAll [] program
      ((Renaming.of distances program scope target.name newName).program program) after := by
  intro distances
  rcases resolve_ok wellFormed accepted with ⟨listed, bound⟩
  rw [← listed] at distinct
  have bound := bound (Renaming.foundBy distances) fun reference member =>
    Distances.find?_recordAll_of_mem distinct member rfl
  have suits := suits_sites distances accepted distinct declared notFunction unused
  exact Stmt.alphaAll_rename (.nil _) bound suits

/-- Local names do not matter.  A local variable or parameter of an accepted program gets a name that stands nowhere
in the program, together with the references that are bound to it.  The new program is accepted with the same
findings, and in a fresh session both programs come to the same end, with the same output and the same result; when
they come to no end, each prints what the other has printed. -/
theorem local_names_unnoticed {host : Host} {sink : Sink} {builtins : List Builtin} {source : String}
    {after : Session} {program : List Stmt} {references : List Reference} {scope : Position}
    {outer : List Position} {kind : DeclarationKind} {target : Identifier} {newName : String}
    (read : (Session.start host sink builtins).read source = (after, .ok program))
    (accepted : resolve program = .ok references)
    (declared : ⟨scope :: outer, .declares kind target⟩ ∈ sites program) (notFunction : kind ≠ .function)
    (unused : newName ∉ namesOf program) :
    let distances := Distances.empty.recordAll references
    let renamed := (Renaming.of distances program scope target.name newName).program program
    let original steps := Session.shown ((Session.start host sink builtins).run steps source)
    let changed steps := Session.shown (after.runProgram steps renamed)
    Stmt.AllWellFormed renamed ∧
    (∃ referencesToo, resolve renamed = .ok referencesToo ∧
      referencesToo.map Reference.finding = references.map Reference.finding) ∧
    (∀ sink result, result ≠ .unfinished →
      ((∃ steps, original steps = (sink, result)) ↔ ∃ steps, changed steps = (sink, result))) ∧
    (∀ steps, ∃ more, (original steps).1.Precedes (changed more).1) ∧
    (∀ steps, ∃ more, (changed steps).1.Precedes (original more).1) := by
  intro distances renamed original changed
  have matched := Session.matches_start host sink builtins
  have runs := Session.run_of_read read
  rcases Session.exists_next_of_read read with ⟨next, found, rfl⟩
  have fits := Session.fits_of_readProgram found
  rcases alpha_of_resolve fits.wellFormed fits.distinct accepted declared notFunction unused with ⟨behind, alpha⟩
  rcases resolve_alpha alpha accepted with ⟨referencesToo, acceptedToo, same⟩
  have wellFormed : Stmt.AllWellFormed renamed := alpha.wellFormed fits.wellFormed
  have sameRefs : Stmt.refsOf renamed = Stmt.refsOf program := by
    rw [← (resolve_ok wellFormed acceptedToo).1, ← (resolve_ok fits.wellFormed accepted).1]
    exact same.map_ref_eq
  have fitsToo : (Session.start host sink builtins).Fits next renamed :=
    ⟨wellFormed, sameRefs ▸ fits.distinct, sameRefs ▸ fits.bounds, fits.later⟩
  have shown := Cells.shown_alpha alpha (Cells.counterpart_start host sink builtins)
  refine ⟨wellFormed, ⟨referencesToo, acceptedToo, same⟩, ?_⟩
  refine History.same_ends (fun steps => ?_) fun steps => ?_
  · unfold original changed
    rw [runs]
    refine matched.continues fits fitsToo ⟨_, accepted⟩ ⟨_, acceptedToo⟩ (fun fuel => ⟨fuel, ?_⟩) steps
    rw [shown]
    exact .ended .nil
  · unfold original changed
    simp only [runs]
    refine matched.continues fitsToo fits ⟨_, acceptedToo⟩ ⟨_, accepted⟩ (fun fuel => ⟨fuel, ?_⟩) steps
    rw [shown]
    exact .ended .nil

/-- Of three variables of one name the middle one is renamed: a function from before its declaration means the global
one, which is undefined, a function from behind it reads and writes it, and an inner block hides it. -/
theorem local_names_unnoticed_shadowed :
    let session := Session.start {} {} []
    let unit := "\x7b fun early() \x7b return x; \x7d var x = \"a\";\nfun late() \x7b return x = x + \"b\"; \x7d\n" ++
      "\x7b var x = \"inner\"; print x; \x7d print late(), early(); \x7d"
    let after := (session.read unit).1
    let program := fun name : String => [Stmt.block [
      .function ⟨"early", 1⟩ [] [.giveBack 1 (some (.variable 0 ⟨"x", 1⟩))],
      .declare ⟨name, 1⟩ (some (.constant (.text "a"))),
      .function ⟨"late", 2⟩ [] [.giveBack 2 (some
        (.assign 3 ⟨name, 2⟩ (.binary .add 2 (.variable 2 ⟨name, 2⟩) (.constant (.text "b")))))],
      .block [.declare ⟨"x", 3⟩ (some (.constant (.text "inner"))), .print 3 [.variable 4 ⟨"x", 3⟩]],
      .print 3 [.call (.variable 5 ⟨"late", 3⟩) 3 [], .call (.variable 6 ⟨"early", 3⟩) 3 []]]]
    let references := [
      ⟨0, .read, ⟨"x", 1⟩, none⟩, ⟨2, .read, ⟨"x", 2⟩, some 1⟩, ⟨3, .write, ⟨"x", 2⟩, some 1⟩,
      ⟨4, .read, ⟨"x", 3⟩, some 0⟩, ⟨5, .read, ⟨"late", 3⟩, some 0⟩, ⟨6, .read, ⟨"early", 3⟩, some 0⟩]
    let toY := Renaming.of (Distances.empty.recordAll references) (program "x") [0] "x" "y"
    let ended := ({ written := "inner\nab\n".toUTF8 }, .failed (.runtime ⟨.undefinedVariable "x", 1⟩))
    session.read unit = (after, .ok (program "x")) ∧ resolve (program "x") = .ok references ∧
      ⟨[[0]], .declares .variable ⟨"x", 1⟩⟩ ∈ sites (program "x") ∧ "y" ∉ namesOf (program "x") ∧
      toY.program (program "x") = program "y" ∧
      ∃ steps, Session.shown (after.runProgram steps (program "y")) = ended := by
  intro session unit after program references toY ended
  have read : session.read unit = (after, .ok (program "x")) := by
    refine Prod.ext rfl ?_
    unfold session unit program
    simp only [Session.read, readProgram, tokenize_eq]
    cbv
  have accepted : resolve (program "x") = .ok references := rfl
  have declared : ⟨[[0]], .declares .variable ⟨"x", 1⟩⟩ ∈ sites (program "x") := by decide
  have unused : "y" ∉ namesOf (program "x") := by decide
  have renamed : toY.program (program "x") = program "y" := rfl
  have shown : Session.shown (session.run 60 unit) = ended := by
    unfold session unit ended
    simp only [Session.run, Session.accept, Session.read, readProgram, tokenize_eq]
    cbv
  have unnoticed := local_names_unnoticed read accepted declared (by decide) unused
  refine ⟨read, accepted, declared, unused, renamed, ?_⟩
  rw [← renamed]
  refine (unnoticed.2.2.1 _ _ fun same => ?_).mp ⟨60, shown⟩
  cases same

end ScopedScript

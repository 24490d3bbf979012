import ScopedScript.Proofs.Renaming.ParallelRuns
namespace ScopedScript

/-!
# Alpha-equivalent programs run in parallel

With the same fuel, the evaluator with cells takes the same steps on alpha-equivalent programs.  So they end
together, with the same output, and neither is ahead of the other when the fuel is out.
-/

/-- Two loops that differ in local names. -/
inductive Loop.Alpha (pairing : Pairing) : Loop → Loop → Prop where
  | parts {condition conditionToo increment incrementToo : Option Expr} {body bodyToo : Stmt}
      (test : Expr.Alpha? pairing condition conditionToo) (step : Expr.Alpha? pairing increment incrementToo)
      (inside : body.Alpha pairing bodyToo pairing) :
      Alpha pairing ⟨condition, increment, body⟩ ⟨conditionToo, incrementToo, bodyToo⟩

namespace Cells

open Parallel (Evaluates Executes)

/-- With so much fuel, alpha-equivalent pieces of programs run in parallel. -/
structure Alongside (fuel : Nat) : Prop where
  evaluate : ∀ depth {pairing : Pairing} {env envToo : Env}, Env.Counterpart pairing env envToo →
    Evaluates pairing (evaluate fuel depth env) (evaluate fuel depth envToo)
  execute : ∀ depth, Executes (execute fuel depth) (execute fuel depth)
  loop : ∀ depth {pairing : Pairing} {env envToo : Env} {whole wholeToo : Loop},
    Env.Counterpart pairing env envToo → whole.Alpha pairing wholeToo → ∀ made,
      Parallel Flow.Counterpart made (loop fuel depth env whole) (loop fuel depth envToo wholeToo)

namespace Alongside

variable {fuel : Nat} {pairing : Pairing} {env envToo : Env}

/-- The rounds of loops that differ in local names. -/
theorem rounds (here : Alongside fuel) (depth : Nat) {whole wholeToo : Loop}
    (around : Env.Counterpart pairing env envToo) (alpha : whole.Alpha pairing wholeToo) (made : List Pairing) :
    Parallel Flow.Counterpart made
      (round (Cells.evaluate fuel depth env) (Cells.execute fuel depth env) (Cells.loop fuel depth env whole) whole)
      (round (Cells.evaluate fuel depth envToo) (Cells.execute fuel depth envToo)
        (Cells.loop fuel depth envToo wholeToo) wholeToo) := by
  rw [round_eq_turn, round_eq_turn]
  have again := here.loop depth around alpha
  cases alpha with
  | parts test step inside =>
      exact .turn (fun _ => .goesOn (here.evaluate depth around) test) (here.execute depth around inside)
        (fun _ => .advance (here.evaluate depth around) step) again

theorem evaluate_succ (here : Alongside fuel) (depth : Nat) (around : Env.Counterpart pairing env envToo) :
    Evaluates pairing (Cells.evaluate (fuel + 1) depth env) (Cells.evaluate (fuel + 1) depth envToo) := by
  have part := here.evaluate depth around
  intro e eToo alpha made
  cases alpha with
  | constant value => exact .done fun _ _ => .plain (by cases value <;> rfl)
  | group inside => exact part inside made
  | unary op line inside =>
      refine (part inside made).bind fun more grows value valueToo same => ?_
      rw [op.apply_similar same.similar]
      exact .deliver line fun _ => op.isClosure_apply
  | binary op line onLeft onRight =>
      refine (part onLeft made).bind fun more grows left leftToo sameLeft => ?_
      refine (part onRight more).bind fun later growsLater right rightToo sameRight => ?_
      rw [op.apply_similar sameLeft.similar sameRight.similar]
      exact .deliver line fun _ => op.isClosure_apply
  | logical op onLeft onRight =>
      refine (part onLeft made).bind fun more grows value valueToo same => ?_
      rw [op.isDecidedBy_eq same.similar]
      split
      · exact .done fun _ growsLater => same.mono growsLater
      · exact part onRight more
  | «variable» ref line means => exact .read around means line
  | assign ref line means inside =>
      refine (part inside made).bind fun more grows value valueToo same => ?_
      refine (Parallel.write around means line same).bind fun later growsLater _ _ _ => ?_
      exact .done fun _ growsLast => same.mono (growsLater.trans growsLast)
  | call line function inside =>
      refine (part function made).bind fun more grows callee calleeToo same => ?_
      refine (Parallel.evaluateAll part inside more).bind fun later growsLater values valuesToo sameAll => ?_
      exact .call (here.execute (depth + 1)) depth line (same.mono growsLater) sameAll

theorem execute_succ (here : Alongside fuel) (depth : Nat) :
    Executes (Cells.execute (fuel + 1) depth) (Cells.execute (fuel + 1) depth) := by
  have part := here.execute depth
  intro pairing after env envToo s sToo around alpha made
  have expressions := here.evaluate depth around
  cases alpha with
  | expression inside => exact (expressions inside made).bind fun _ _ _ _ _ => .done fun _ _ => ⟨.normal, around⟩
  | print line inside =>
      exact (Parallel.printAll expressions line inside made).bind fun _ _ _ _ _ => .done fun _ _ => ⟨.normal, around⟩
  | declare line admits inside =>
      refine (Parallel.declare around admits).bind fun more grows inner innerToo behind => ?_
      refine (Parallel.evaluate? (here.evaluate depth behind) inside).bind
        fun later growsLater value valueToo same => ?_
      exact (Parallel.define behind admits.means same).bind fun _ _ _ _ _ => .done fun _ _ => ⟨.normal, behind⟩
  | block inside =>
      refine (Parallel.executeAll part around.enter inside made).bind fun more grows flow flowToo same => ?_
      exact .done fun _ growsLater => ⟨same.mono growsLater, around⟩
  | branch test ifTrue ifFalse =>
      refine (expressions test made).bind fun more grows value valueToo same => ?_
      rw [same.similar.isTruthy_eq]
      split
      · exact part around ifTrue more
      · cases ifFalse with
        | none _ => exact .done fun _ _ => ⟨.normal, around⟩
        | some present => exact part around present more
  | whileLoop test inside =>
      refine (here.rounds depth around (.parts (.some test) .none inside) made).bind
        fun more grows flow flowToo same => ?_
      exact .done fun _ growsLater => ⟨same.mono growsLater, around⟩
  | forLoop begins test step inside =>
      refine (Parallel.openLoop part around.enter begins).bind fun more grows inner innerToo opened => ?_
      refine (here.rounds depth opened (.parts test step inside) more).bind
        fun later growsLater flow flowToo same => ?_
      exact .done fun _ growsLast => ⟨same.mono growsLast, around⟩
  | function target admits together inside =>
      refine (Parallel.declare around admits).bind fun more grows inner innerToo behind => ?_
      refine (Parallel.close behind target.name together inside).bind fun later growsLater value valueToo same => ?_
      exact (Parallel.define behind admits.means same).bind fun _ _ _ _ _ => .done fun _ _ => ⟨.normal, behind⟩
  | giveBack line inside =>
      refine (Parallel.evaluate? expressions inside).bind fun more grows value valueToo same => ?_
      exact .done fun _ growsLater => ⟨.returned (same.mono growsLater), around⟩

end Alongside

/-- With any fuel, alpha-equivalent pieces of programs run in parallel. -/
theorem alongside (fuel : Nat) : Alongside fuel := by
  induction fuel with
  | zero => exact ⟨fun _ _ _ _ _ _ _ _ _ => .outOfFuel, fun _ _ _ _ _ _ _ _ _ _ => .outOfFuel,
      fun _ _ _ _ _ _ _ _ _ => .outOfFuel⟩
  | succ fuel inductionHypothesis =>
      refine ⟨fun depth _ _ _ around => inductionHypothesis.evaluate_succ depth around,
        inductionHypothesis.execute_succ, fun depth pairing env envToo whole wholeToo around alpha made => ?_⟩
      exact inductionHypothesis.rounds depth around alpha made

end Cells

end ScopedScript

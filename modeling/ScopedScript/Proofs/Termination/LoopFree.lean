import ScopedScript.Proofs.Relabeling.Units
namespace ScopedScript

/-!
# Programs without loops

A program is free of loops when no `while` and no `for` stands anywhere in it, the bodies of its functions
included.  Functions that call themselves are no loops.  Whether a text is free of loops does not depend on
the identities that its references get.
-/

namespace Stmt

mutual

/-- No `while` and no `for` stands in the statement. -/
def isLoopFree : Stmt → Bool
  | .expression _ => true
  | .print _ _ => true
  | .declare _ _ => true
  | .block body => areLoopFree body
  | .branch _ whenTrue whenFalse => whenTrue.isLoopFree && isLoopFree? whenFalse
  | .whileLoop _ _ => false
  | .forLoop _ _ _ _ => false
  | .function _ _ body => areLoopFree body
  | .giveBack _ _ => true

/-- No `while` and no `for` stands in the statements. -/
def areLoopFree : List Stmt → Bool
  | [] => true
  | first :: rest => first.isLoopFree && areLoopFree rest

/-- No `while` and no `for` stands in a statement that may be absent. -/
def isLoopFree? : Option Stmt → Bool
  | none => true
  | some s => s.isLoopFree

end

theorem isLoopFree_of_mem {s : Stmt} {ss : List Stmt} (loopFree : areLoopFree ss = true) (member : s ∈ ss) :
    s.isLoopFree = true := by
  induction member with
  | head rest => exact (Bool.and_eq_true_iff.mp loopFree).1
  | tail other _ inductionHypothesis =>
      exact inductionHypothesis (Bool.and_eq_true_iff.mp loopFree).2

section

variable (r : Relabeling)

mutual

theorem isLoopFree_relabel : ∀ s : Stmt, (s.relabel r).isLoopFree = s.isLoopFree
  | .expression _ | .print _ _ | .declare _ _ | .whileLoop _ _ | .forLoop _ _ _ _ | .giveBack _ _ => rfl
  | .block body | .function _ _ body => areLoopFree_relabelAll body
  | .branch _ whenTrue whenFalse => by
      rw [relabel, isLoopFree, isLoopFree, isLoopFree_relabel whenTrue, isLoopFree?_relabel? whenFalse]

theorem areLoopFree_relabelAll : ∀ ss : List Stmt, areLoopFree (relabelAll r ss) = areLoopFree ss
  | [] => rfl
  | first :: rest => by
      rw [relabelAll, areLoopFree, areLoopFree, isLoopFree_relabel first, areLoopFree_relabelAll rest]

theorem isLoopFree?_relabel? : ∀ s : Option Stmt, isLoopFree? (relabel? r s) = isLoopFree? s
  | none => rfl
  | some s => isLoopFree_relabel s

end

end

end Stmt

/-- Whether the program of a text is free of loops.  A text that has none is. -/
def isLoopFreeUnit (source : String) : Bool :=
  match readProgram source 0 with
  | .ok (program, _) => Stmt.areLoopFree program
  | .error _ => true

/-- A text is free of loops at whatever point of a session it is read. -/
theorem areLoopFree_of_readProgram {source : String} {next after : RefId} {program : List Stmt}
    (loopFree : isLoopFreeUnit source = true) (found : readProgram source next = .ok (program, after)) :
    Stmt.areLoopFree program = true := by
  rcases readProgram_anywhere found 0 with ⟨first, afterFirst, foundFirst⟩
  have moved := readProgram_offset next foundFirst
  rw [Nat.add_zero, found] at moved
  cases moved
  rw [isLoopFreeUnit, foundFirst] at loopFree
  rwa [Stmt.areLoopFree_relabelAll]

end ScopedScript

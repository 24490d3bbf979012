import ScopedScript.Syntax
namespace ScopedScript

/-!
# The identities of a tree's references

`refs` lists them in the order in which the scope analysis meets them, which is also the order in which
the parser hands them out: an assignment gets its identity after its value has been read.  The identities
of a tree are `Ascending` from the first free one to the next free one, so no two references share one,
and a tree read later shares none with a tree read before.
-/

namespace Expr

mutual

/-- The identities of an expression's references.  An assignment comes behind its value. -/
def refs : Expr → List RefId
  | .constant _ => []
  | .group inner => inner.refs
  | .unary _ _ operand => operand.refs
  | .binary _ _ left right => left.refs ++ right.refs
  | .logical _ left right => left.refs ++ right.refs
  | .variable ref _ => [ref]
  | .assign ref _ value => value.refs ++ [ref]
  | .call callee _ arguments => callee.refs ++ refsOf arguments

/-- The identities of several expressions' references. -/
def refsOf : List Expr → List RefId
  | [] => []
  | first :: rest => first.refs ++ refsOf rest

end

/-- The identities of the references of an expression that may be absent. -/
def refs? : Option Expr → List RefId
  | none => []
  | some e => e.refs

end Expr

namespace Stmt

mutual

/-- The identities of a statement's references. -/
def refs : Stmt → List RefId
  | .expression value => value.refs
  | .print _ values => Expr.refsOf values
  | .declare _ initializer => Expr.refs? initializer
  | .block body => refsOf body
  | .branch condition whenTrue whenFalse => condition.refs ++ whenTrue.refs ++ refs? whenFalse
  | .whileLoop condition body => condition.refs ++ body.refs
  | .forLoop initializer condition increment body =>
    refs? initializer ++ Expr.refs? condition ++ Expr.refs? increment ++ body.refs
  | .function _ _ body => refsOf body
  | .giveBack _ value => Expr.refs? value

/-- The identities of several statements' references. -/
def refsOf : List Stmt → List RefId
  | [] => []
  | first :: rest => first.refs ++ refsOf rest

/-- The identities of the references of a statement that may be absent. -/
def refs? : Option Stmt → List RefId
  | none => []
  | some s => s.refs

end

end Stmt

/-- Identities in strictly rising order, none below `first` and all below `last`. -/
def Ascending (first : RefId) : List RefId → RefId → Prop
  | [], last => first ≤ last
  | ref :: rest, last => first ≤ ref ∧ Ascending (ref + 1) rest last

namespace Ascending

variable {first middle last ref : RefId} {refs others : List RefId}

theorem le (rising : Ascending first refs last) : first ≤ last := by
  induction refs generalizing first with
  | nil => exact rising
  | cons ref rest inductionHypothesis =>
      exact Nat.le_trans rising.1 (Nat.le_of_succ_le (inductionHypothesis rising.2))

/-- Identities handed out one after the other rise together. -/
theorem append (before : Ascending first refs middle) (after : Ascending middle others last) :
    Ascending first (refs ++ others) last := by
  induction refs generalizing first with
  | nil =>
      cases others with
      | nil => exact Nat.le_trans before after
      | cons ref rest => exact ⟨Nat.le_trans before after.1, after.2⟩
  | cons ref rest inductionHypothesis => exact ⟨before.1, inductionHypothesis before.2⟩

/-- Every listed identity lies between the two ends. -/
theorem bounds (rising : Ascending first refs last) (listed : ref ∈ refs) :
    first ≤ ref ∧ ref < last := by
  induction refs generalizing first with
  | nil => cases listed
  | cons head rest inductionHypothesis =>
      cases List.mem_cons.mp listed with
      | inl same =>
          subst same
          exact ⟨rising.1, rising.2.le⟩
      | inr later =>
          have inside := inductionHypothesis rising.2 later
          exact ⟨Nat.le_trans rising.1 (Nat.le_of_succ_le inside.1), inside.2⟩

/-- No identity is listed twice. -/
theorem nodup (rising : Ascending first refs last) : refs.Nodup := by
  induction refs generalizing first with
  | nil => exact List.nodup_nil
  | cons ref rest inductionHypothesis =>
      refine List.nodup_cons.mpr ⟨fun again => ?_, inductionHypothesis rising.2⟩
      exact Nat.lt_irrefl ref (rising.2.bounds again).1

end Ascending

end ScopedScript

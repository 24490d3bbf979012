import Mathlib.Data.List.Forall2
import ScopedScript.Machine.Operators
import ScopedScript.Proofs.Scoping.Correspondence
namespace ScopedScript

/-!
# No operator tells alike values apart

Operators and builtins never look into a declared function, apart from its name, its identity and how many
parameters it has.  So they
do the same to `Similar` values, and alike values are similar.  What an operator makes is never a declared
function; a builtin may hand one of its arguments back.
-/

/-- Two values are the same, or functions that differ in the names of their parameters, in their bodies and their
surroundings only. -/
inductive Similar : Value → Value → Prop where
  | plain {value : Value} (notClosure : value.isClosure = false) : Similar value value
  | closure (identity : Nat) (name : String) (parameters parametersToo : List Identifier)
      (body bodyToo : List Stmt) (scope scopeToo : ScopeId) (asMany : parameters.length = parametersToo.length) :
      Similar (.function identity (.closure ⟨name, parameters, body, scope⟩))
        (.function identity (.closure ⟨name, parametersToo, bodyToo, scopeToo⟩))

theorem Alike.similar {known : Known} {w : World} {value other : Value} (alike : Alike known w value other) :
    Similar value other := by
  cases alike with
  | plain notClosure => exact .plain notClosure
  | closure _ _ _ => exact .closure _ _ _ _ _ _ _ _ rfl

section

variable {value other left right otherLeft otherRight : Value}

namespace Similar

theorem isTruthy_eq (similar : Similar value other) : value.isTruthy = other.isTruthy := by
  cases similar <;> rfl

theorem render_eq (similar : Similar value other) : value.render = other.render := by
  cases similar <;> rfl

theorem view_eq (similar : Similar value other) : value.view = other.view := by
  cases similar with
  | plain => rfl
  | closure _ _ _ _ _ _ _ _ asMany =>
      rw [Value.view, Value.view, Callable.arity, Callable.arity, asMany]
      rfl

theorem isEqual_eq (similarLeft : Similar left otherLeft) (similarRight : Similar right otherRight) :
    left.isEqual right = otherLeft.isEqual otherRight := by
  cases similarLeft with
  | plain _ =>
      cases similarRight with
      | plain _ => rfl
      | closure => cases left <;> rfl
  | closure =>
      cases similarRight with
      | plain _ => cases right <;> rfl
      | closure => rfl

end Similar

namespace UnaryOp

theorem apply_similar (op : UnaryOp) (similar : Similar value other) : op.apply value = op.apply other := by
  cases op with
  | negate => cases similar <;> rfl
  | not => rw [apply, apply, similar.isTruthy_eq]

theorem isClosure_apply {op : UnaryOp} {result : Value} (applied : op.apply value = .ok result) :
    result.isClosure = false := by
  cases op with
  | negate => cases value <;> cases applied; rfl
  | not => cases applied; rfl

end UnaryOp

namespace BinaryOp

theorem apply_similar (op : BinaryOp) (similarLeft : Similar left otherLeft)
    (similarRight : Similar right otherRight) : op.apply left right = op.apply otherLeft otherRight := by
  have equality := similarLeft.isEqual_eq similarRight
  cases similarLeft with
  | plain _ =>
      cases similarRight with
      | plain _ => rfl
      | closure =>
          cases op with
          | equal => rw [apply, apply, equality]
          | notEqual => rw [apply, apply, equality]
          | _ => cases left <;> rfl
  | closure =>
      cases op with
      | equal => rw [apply, apply, equality]
      | notEqual => rw [apply, apply, equality]
      | _ => rfl

theorem isClosure_apply {op : BinaryOp} {result : Value} (applied : op.apply left right = .ok result) :
    result.isClosure = false := by
  cases op with
  | equal => cases applied; rfl
  | notEqual => cases applied; rfl
  | _ => cases left <;> cases right <;> cases applied <;> rfl

end BinaryOp

namespace LogicalOp

theorem isDecidedBy_eq (op : LogicalOp) (similar : Similar value other) :
    op.isDecidedBy value = op.isDecidedBy other := by
  cases op <;> simp only [isDecidedBy, similar.isTruthy_eq]

end LogicalOp

theorem Value.isClosure_ofConstant (value : Constant) : (Value.ofConstant value).isClosure = false := by
  cases value <;> rfl

/-- What a reply means for related arguments is related. -/
theorem Reply.value_related {R : Value → Value → Prop}
    (plain : ∀ value : Value, value.isClosure = false → R value value) (reply : Reply)
    {arguments others : List Value} (related : List.Forall₂ R arguments others) :
    R (reply.value arguments) (reply.value others) := by
  cases reply with
  | constant value => exact plain _ (Value.isClosure_ofConstant value)
  | argument place =>
      unfold Reply.value
      induction related generalizing place with
      | nil => exact plain _ rfl
      | cons first _ inductionHypothesis =>
          cases place with
          | zero => exact first
          | succ place => exact inductionHypothesis place

namespace Builtin

/-- A builtin fails with the same text for similar arguments, or gives results that are as similar. -/
theorem apply_similar {R : Value → Value → Prop} (similar : ∀ value other, R value other → Similar value other)
    (plain : ∀ value : Value, value.isClosure = false → R value value) (builtin : Builtin) (reading : ClockReading)
    {arguments others : List Value} (related : List.Forall₂ R arguments others) :
    (∃ message, builtin.apply reading arguments = .error message ∧
      builtin.apply reading others = .error message) ∨
    (∃ result same, builtin.apply reading arguments = .ok result ∧
      builtin.apply reading others = .ok same ∧ R result same) := by
  have views : arguments.map Value.view = others.map Value.view := by
    induction related with
    | nil => rfl
    | cons first _ inductionHypothesis =>
        rw [List.map_cons, List.map_cons, (similar _ _ first).view_eq, inductionHypothesis]
  unfold apply
  rw [← views]
  cases builtin.respond reading (arguments.map Value.view) with
  | error message => exact .inl ⟨message, rfl, rfl⟩
  | ok reply => exact .inr ⟨_, _, rfl, rfl, reply.value_related plain related⟩

end Builtin

end

/-! ## Values in cells -/

section

variable {R : Value → Value → Prop} {cells cellsToo : Array Value} {value other : Value}

/-- What two rows of cells hold stays related when related values are put into the same cell. -/
theorem related_setIfInBounds (size : cellsToo.size = cells.size)
    (related : ∀ cell, R (cells.getD cell .nil) (cellsToo.getD cell .nil)) (same : R value other)
    (changed cell : Nat) :
    R ((cells.setIfInBounds changed value).getD cell .nil)
      ((cellsToo.setIfInBounds changed other).getD cell .nil) := by
  have before := related cell
  simp only [Array.getD_eq_getD_getElem?, Array.getElem?_setIfInBounds, size] at before ⊢
  split
  · split
    · exact same
    · subst changed
      simpa [size, ‹¬ _›] using before
  · exact before

/-- It stays related when both rows get one more cell. -/
theorem related_push (size : cellsToo.size = cells.size)
    (related : ∀ cell, R (cells.getD cell .nil) (cellsToo.getD cell .nil)) (same : R value other) (cell : Nat) :
    R ((cells.push value).getD cell .nil) ((cellsToo.push other).getD cell .nil) := by
  have before := related cell
  simp only [Array.getD_eq_getD_getElem?, Array.getElem?_push, size] at before ⊢
  split
  · exact same
  · exact before

end

end ScopedScript

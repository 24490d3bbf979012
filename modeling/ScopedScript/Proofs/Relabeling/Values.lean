import ScopedScript.Proofs.Machine.Mentions
import ScopedScript.Proofs.Relabeling.Trees
namespace ScopedScript

/-!
# Values under a relabeling

Only declared functions have code, so only they change.  No operator, builtin or printed text shows the
difference: what they make of relabeled values is what they make of the values, relabeled.
-/

variable (r second first : Relabeling)

namespace Closure

/-- A declared function with other identities and lines in its code. -/
def relabel (closure : Closure) : Closure :=
  ⟨closure.name, closure.parameters.map (Identifier.relabel r), Stmt.relabelAll r closure.body,
    closure.scope⟩

end Closure

namespace Callable

/-- A function with other identities and lines in its code. -/
def relabel : Callable → Callable
  | closure c => closure (c.relabel r)
  | builtin b => builtin b

theorem arity_relabel (callable : Callable) : (callable.relabel r).arity = callable.arity := by
  cases callable with
  | closure c => exact List.length_map _
  | builtin b => rfl

theorem render_relabel (callable : Callable) : (callable.relabel r).render = callable.render := by
  cases callable <;> rfl

end Callable

namespace Value

/-- A value with other identities and lines in its code. -/
def relabel : Value → Value
  | function identity callable => function identity (callable.relabel r)
  | value => value

theorem isTruthy_relabel (value : Value) : (value.relabel r).isTruthy = value.isTruthy := by
  cases value <;> rfl

theorem render_relabel (value : Value) : (value.relabel r).render = value.render := by
  cases value with
  | function identity callable => exact callable.render_relabel r
  | _ => rfl

theorem view_relabel (value : Value) : (value.relabel r).view = value.view := by
  cases value with
  | function identity callable =>
      rw [relabel, view, view, callable.arity_relabel r, callable.render_relabel r]
  | _ => rfl

theorem isEqual_relabel (left right : Value) :
    (left.relabel r).isEqual (right.relabel r) = left.isEqual right := by
  cases left <;> cases right <;> rfl

theorem relabel_ofConstant (value : Constant) : (ofConstant value).relabel r = ofConstant value := by
  cases value <;> rfl

theorem relabel_same (value : Value) : value.relabel .same = value := by
  cases value with
  | function identity callable =>
      cases callable with
      | closure c =>
          rcases c with ⟨name, parameters, body, scope⟩
          dsimp only [relabel, Callable.relabel, Closure.relabel]
          rw [Stmt.relabelAll_same, List.map_id'' Identifier.relabel_same]
      | builtin b => rfl
  | _ => rfl

theorem relabel_relabel (value : Value) :
    (value.relabel first).relabel second = value.relabel (second.after first) := by
  cases value with
  | function identity callable =>
      cases callable with
      | closure c =>
          dsimp only [relabel, Callable.relabel, Closure.relabel]
          rw [Stmt.relabelAll_relabelAll, List.map_map]
          rfl
      | builtin b => rfl
  | _ => rfl

variable {second first} in
theorem relabel_congr (value : Value) (agree : first.AgreeOn second value.refs) :
    value.relabel first = value.relabel second := by
  cases value with
  | function identity callable =>
      cases callable with
      | closure c =>
          dsimp only [relabel, Callable.relabel, Closure.relabel]
          rw [Stmt.relabelAll_congr c.body agree,
            List.map_congr_left fun parameter _ => agree.identifier parameter]
      | builtin b => rfl
  | _ => rfl

end Value

/-! ## Operators and builtins -/

theorem UnaryOp.apply_relabel (op : UnaryOp) (operand : Value) :
    op.apply (operand.relabel r) = (op.apply operand).map (Value.relabel r) := by
  cases op with
  | negate => cases operand <;> rfl
  | not =>
      rw [UnaryOp.apply, Value.isTruthy_relabel]
      rfl

theorem BinaryOp.apply_relabel (op : BinaryOp) (left right : Value) :
    op.apply (left.relabel r) (right.relabel r) = (op.apply left right).map (Value.relabel r) := by
  cases op with
  | equal | notEqual =>
      rw [BinaryOp.apply, Value.isEqual_relabel]
      rfl
  | _ => cases left <;> cases right <;> rfl

theorem LogicalOp.isDecidedBy_relabel (op : LogicalOp) (left : Value) :
    op.isDecidedBy (left.relabel r) = op.isDecidedBy left := by
  cases op <;> simp only [isDecidedBy, Value.isTruthy_relabel]

theorem Reply.value_relabel (reply : Reply) (arguments : List Value) :
    reply.value (arguments.map (Value.relabel r)) = (reply.value arguments).relabel r := by
  cases reply with
  | constant value => exact (Value.relabel_ofConstant r value).symm
  | argument place =>
      rw [Reply.value, Reply.value, List.getD_eq_getElem?_getD, List.getD_eq_getElem?_getD, List.getElem?_map]
      cases arguments[place]? <;> rfl

theorem Builtin.apply_relabel (builtin : Builtin) (reading : ClockReading) (arguments : List Value) :
    builtin.apply reading (arguments.map (Value.relabel r)) =
      (builtin.apply reading arguments).map (Value.relabel r) := by
  have sameViews : (arguments.map (Value.relabel r)).map Value.view = arguments.map Value.view := by
    rw [List.map_map]
    exact List.map_congr_left fun value _ => value.view_relabel r
  rw [Builtin.apply, Builtin.apply, sameViews]
  cases builtin.respond reading (arguments.map Value.view) with
  | ok reply => exact congrArg Except.ok (reply.value_relabel r arguments)
  | error message => rfl

end ScopedScript

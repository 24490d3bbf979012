import ScopedScript.Failure
import ScopedScript.Value
namespace ScopedScript

/-!
# What operators do to values

Equality is defined between all values, addition joins two texts or adds two numbers, and everything
else wants numbers.  Arithmetic is that of doubles: dividing by zero is no error.
-/

namespace UnaryOp

/-- The result of a unary operator. -/
def apply : UnaryOp → Value → Except RuntimeCause Value
  | .negate, .number value => .ok (.number (-value))
  | .negate, _ => .error .numberOperand
  | .not, value => .ok (.truth (!value.isTruthy))

end UnaryOp

namespace BinaryOp

/-- The result of an operator on two numbers. -/
def onNumbers (op : BinaryOp) (left right : Float) : Value :=
  match op with
  | .add => .number (left + right)
  | .subtract => .number (left - right)
  | .multiply => .number (left * right)
  | .divide => .number (left / right)
  | .equal => .truth (left == right)
  | .notEqual => .truth (left != right)
  | .greater => .truth (left > right)
  | .greaterEqual => .truth (left ≥ right)
  | .less => .truth (left < right)
  | .lessEqual => .truth (left ≤ right)

/-- The result of a binary operator. -/
def apply (op : BinaryOp) (left right : Value) : Except RuntimeCause Value :=
  match op with
  | .equal => .ok (.truth (left.isEqual right))
  | .notEqual => .ok (.truth (!left.isEqual right))
  | .add =>
    match left, right with
    | .number l, .number r => .ok (onNumbers .add l r)
    | .text l, .text r => .ok (.text (l ++ r))
    | _, _ => .error .additionOperands
  | op =>
    match left, right with
    | .number l, .number r => .ok (op.onNumbers l r)
    | _, _ => .error .numberOperands

end BinaryOp

namespace LogicalOp

/-- Whether the left operand already decides the result. -/
def isDecidedBy : LogicalOp → Value → Bool
  | .and, left => !left.isTruthy
  | .or, left => left.isTruthy

end LogicalOp

end ScopedScript

import ScopedScript.Syntax.ExpressionParser
namespace ScopedScript

/-!
# Which trees the grammar has

Expressions stand on a ladder: assignment, `or`, `and`, equality, comparison, term, factor, unary, call,
primary.  An operand may stand only so low on it; a group may hold anything and stands at the top.  The
operators associate to the left, so the left operand may stand on the level of its operator and the right
one only above.

Declarations stand in lists only, apart from the variable of a `for`.  An `else` belongs to the nearest
`if` that has none yet, so the branch before it must not end in such an `if`.
-/

namespace Expr

/-- The level of unary operators, above those of `Connective.level`. -/
def unaryLevel : Nat := 7

/-- The level of calls. -/
def callLevel : Nat := 8

/-- The level of constants, variables and groups. -/
def primaryLevel : Nat := 9

/-- The place of an expression on the ladder. -/
def level : Expr → Nat
  | .assign _ _ _ => 0
  | .logical op _ _ => (Connective.logical op).level
  | .binary op _ _ _ => (Connective.binary op).level
  | .unary _ _ _ => unaryLevel
  | .call _ _ _ => callLevel
  | .constant _ | .group _ | .variable _ _ => primaryLevel

end Expr

namespace Constant

/-- A constant that a token can stand for.  Texts and words always can; a number has to be the value of
some numeral, which rules out the negative ones. -/
def Writable : Constant → Prop
  | .number value => ∃ numeral : String, (Decimal.ofNumeral numeral.toList).toFloat = value
  | _ => True

end Constant

namespace Expr

mutual

/-- An expression that the grammar has. -/
def WellFormed : Expr → Prop
  | .constant value => value.Writable
  | .group inner => inner.WellFormed
  | .unary _ _ operand => operand.WellFormed ∧ unaryLevel ≤ operand.level
  | .binary op _ left right =>
    left.WellFormed ∧ right.WellFormed ∧
      (Connective.binary op).level ≤ left.level ∧ (Connective.binary op).level < right.level
  | .logical op left right =>
    left.WellFormed ∧ right.WellFormed ∧
      (Connective.logical op).level ≤ left.level ∧ (Connective.logical op).level < right.level
  | .variable _ _ => True
  | .assign _ _ value => value.WellFormed
  | .call callee _ arguments =>
    callee.WellFormed ∧ callLevel ≤ callee.level ∧ arguments.length ≤ maxArity ∧
      AllWellFormed arguments

/-- Expressions that the grammar has. -/
def AllWellFormed : List Expr → Prop
  | [] => True
  | first :: rest => first.WellFormed ∧ AllWellFormed rest

end

/-- An expression that the grammar has, or none. -/
def WellFormed? : Option Expr → Prop
  | none => True
  | some e => e.WellFormed

end Expr

namespace Stmt

/-- Whether a statement declares a name where it stands. -/
def declares : Stmt → Bool
  | .declare _ _ | .function _ _ _ => true
  | _ => false

/-- Whether an `else` behind a statement would belong to an `if` inside it. -/
def endsOpen : Stmt → Bool
  | .branch _ _ none => true
  | .branch _ _ (some other) => other.endsOpen
  | .whileLoop _ body => body.endsOpen
  | .forLoop _ _ _ body => body.endsOpen
  | _ => false

/-- What a `for` may begin with: nothing, a variable or an expression. -/
def InitializerWellFormed : Option Stmt → Prop
  | none => True
  | some (.declare _ value) => Expr.WellFormed? value
  | some (.expression value) => value.WellFormed
  | some _ => False

mutual

/-- A statement or declaration that the grammar has. -/
def WellFormed : Stmt → Prop
  | .expression value => value.WellFormed
  | .print _ values => values ≠ [] ∧ Expr.AllWellFormed values
  | .declare _ initializer => Expr.WellFormed? initializer
  | .block body => AllWellFormed body
  | .branch condition whenTrue whenFalse =>
    condition.WellFormed ∧ whenTrue.WellFormed ∧ whenTrue.declares = false ∧
      (whenFalse ≠ none → whenTrue.endsOpen = false) ∧ BranchWellFormed whenFalse
  | .whileLoop condition body => condition.WellFormed ∧ body.WellFormed ∧ body.declares = false
  | .forLoop initializer condition increment body =>
    InitializerWellFormed initializer ∧ Expr.WellFormed? condition ∧ Expr.WellFormed? increment ∧
      body.WellFormed ∧ body.declares = false
  | .function _ parameters body => parameters.length ≤ maxArity ∧ AllWellFormed body
  | .giveBack _ value => Expr.WellFormed? value

/-- Statements and declarations that the grammar has. -/
def AllWellFormed : List Stmt → Prop
  | [] => True
  | first :: rest => first.WellFormed ∧ AllWellFormed rest

/-- The other branch of an `if`, which declares nothing. -/
def BranchWellFormed : Option Stmt → Prop
  | none => True
  | some other => other.WellFormed ∧ other.declares = false

end

end Stmt

end ScopedScript

namespace ScopedScript

/-!
# Syntax trees

Expressions and statements as the grammar has them.  Every read and every write of a variable is a
reference with an identity of its own, under which the scope analysis records how far away the
variable's scope is.  Lines are kept where an error may have to name one.
-/

/-- The identity of one reference to a variable. -/
abbrev RefId := Nat

/-- A name as it stands at one place of a text. -/
structure Identifier where
  name : String
  line : Nat
  deriving DecidableEq, Repr

/-- A value written out in a text. -/
inductive Constant where
  | number (value : Float)
  | text (value : String)
  | truth (value : Bool)
  | nil
  deriving DecidableEq

/-- Operators before their operand. -/
inductive UnaryOp where
  | negate | not
  deriving DecidableEq, Repr

/-- Operators that evaluate both operands. -/
inductive BinaryOp where
  | add | subtract | multiply | divide
  | equal | notEqual
  | greater | greaterEqual | less | lessEqual
  deriving DecidableEq, Repr

/-- Operators that may leave out their right operand. -/
inductive LogicalOp where
  | and | or
  deriving DecidableEq, Repr

/-- Expressions. The line of an operator is its own, that of a call is the closing parenthesis's. -/
inductive Expr where
  | constant (value : Constant)
  | group (inner : Expr)
  | unary (op : UnaryOp) (line : Nat) (operand : Expr)
  | binary (op : BinaryOp) (line : Nat) (left right : Expr)
  | logical (op : LogicalOp) (left right : Expr)
  | variable (ref : RefId) (target : Identifier)
  | assign (ref : RefId) (target : Identifier) (value : Expr)
  | call (callee : Expr) (line : Nat) (arguments : List Expr)

/-- Statements. The line of `print` and `return` is the keyword's. -/
inductive Stmt where
  | expression (value : Expr)
  | print (line : Nat) (values : List Expr)
  | declare (target : Identifier) (initializer : Option Expr)
  | block (body : List Stmt)
  | branch (condition : Expr) (whenTrue : Stmt) (whenFalse : Option Stmt)
  | whileLoop (condition : Expr) (body : Stmt)
  | forLoop (initializer : Option Stmt) (condition increment : Option Expr) (body : Stmt)
  | function (target : Identifier) (parameters : List Identifier) (body : List Stmt)
  | giveBack (line : Nat) (value : Option Expr)

end ScopedScript

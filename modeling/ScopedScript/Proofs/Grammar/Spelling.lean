import ScopedScript.Syntax.ExpressionParser
namespace ScopedScript

/-!
# Writing trees as tokens

`Spelling` writes a tree back as the grammar spells it.  What it writes are marks, not tokens: a mark
says which symbol, word, name or literal stands at a place, and on which line if the tree remembers
that line.  A token fits a mark when it agrees with both.  A number is told by its value, since a tree
does not remember how its digits were written.
-/

/-- What a token is to the grammar: a number counts by its value and not by its digits. -/
inductive Glyph where
  | symbol (symbol : Symbol)
  | keyword (keyword : Keyword)
  | name (name : String)
  | literal (value : TokenLiteral)
  deriving DecidableEq

namespace TokenKind

/-- What a kind of token is to the grammar. -/
def glyph : TokenKind → Glyph
  | symbol s => .symbol s
  | keyword k => .keyword k
  | identifier name => .name name
  | string body => .literal (.text body)
  | number numeral => .literal (.number (Decimal.ofNumeral numeral.toList).toFloat)

end TokenKind

/-- What must stand at a place of a text, and on which line when the tree says so. -/
structure Mark where
  glyph : Glyph
  line? : Option Nat := none
  deriving DecidableEq

namespace Mark

/-- A symbol on any line. -/
def symbol (s : Symbol) : Mark := ⟨.symbol s, none⟩

/-- A symbol on a given line. -/
def symbolAt (s : Symbol) (line : Nat) : Mark := ⟨.symbol s, some line⟩

/-- A reserved word on any line. -/
def keyword (k : Keyword) : Mark := ⟨.keyword k, none⟩

/-- A reserved word on a given line. -/
def keywordAt (k : Keyword) (line : Nat) : Mark := ⟨.keyword k, some line⟩

/-- A name on its line. -/
def name (target : Identifier) : Mark := ⟨.name target.name, some target.line⟩

/-- A token fits a mark when it is what the mark says, and on the line that the mark names. -/
def Fits (mark : Mark) (token : Token) : Prop :=
  token.kind.glyph = mark.glyph ∧ ∀ line, mark.line? = some line → token.line = line

end Mark

namespace UnaryOp

/-- The symbol of an operator before its operand. -/
def symbol : UnaryOp → Symbol
  | negate => .minus
  | not => .bang

end UnaryOp

namespace BinaryOp

/-- The symbol of an operator between two operands. -/
def symbol : BinaryOp → Symbol
  | add => .plus
  | subtract => .minus
  | multiply => .star
  | divide => .slash
  | equal => .equalEqual
  | notEqual => .bangEqual
  | greater => .greater
  | greaterEqual => .greaterEqual
  | less => .less
  | lessEqual => .lessEqual

end BinaryOp

namespace LogicalOp

/-- The reserved word of an operator between two operands. -/
def keyword : LogicalOp → Keyword
  | and => .andWord
  | or => .orWord

end LogicalOp

namespace Spelling

/-- A constant is one word or one literal. -/
def ofConstant : Constant → Mark
  | .number value => ⟨.literal (.number value), none⟩
  | .text value => ⟨.literal (.text value), none⟩
  | .truth true => .keyword .trueWord
  | .truth false => .keyword .falseWord
  | .nil => .keyword .nilWord

mutual

/-- An expression.  Only groups bring parentheses with them. -/
def ofExpr : Expr → List Mark
  | .constant value => [ofConstant value]
  | .group inner => .symbol .leftParen :: (ofExpr inner ++ [.symbol .rightParen])
  | .unary op line operand => .symbolAt op.symbol line :: ofExpr operand
  | .binary op line left right => ofExpr left ++ .symbolAt op.symbol line :: ofExpr right
  | .logical op left right => ofExpr left ++ .keyword op.keyword :: ofExpr right
  | .variable _ target => [.name target]
  | .assign _ target value => .name target :: .symbol .equal :: ofExpr value
  | .call callee line arguments =>
    ofExpr callee ++ .symbol .leftParen :: (ofExprs arguments ++ [.symbolAt .rightParen line])

/-- Expressions with commas between them. -/
def ofExprs : List Expr → List Mark
  | [] => []
  | first :: rest => ofExpr first ++ ofMoreExprs rest

/-- Expressions with a comma before each. -/
def ofMoreExprs : List Expr → List Mark
  | [] => []
  | first :: rest => .symbol .comma :: (ofExpr first ++ ofMoreExprs rest)

end

/-- An expression that may be absent. -/
def ofExpr? : Option Expr → List Mark
  | none => []
  | some e => ofExpr e

/-- Names with a comma before each. -/
def ofMoreNames (names : List Identifier) : List Mark :=
  names.flatMap fun target => [.symbol .comma, .name target]

/-- Names with commas between them. -/
def ofNames : List Identifier → List Mark
  | [] => []
  | first :: rest => .name first :: ofMoreNames rest

/-- What stands between a declared name and its semicolon. -/
def ofInitializer : Option Expr → List Mark
  | none => []
  | some value => .symbol .equal :: ofExpr value

mutual

/-- A statement or a declaration. -/
def ofStmt : Stmt → List Mark
  | .expression value => ofExpr value ++ [.symbol .semicolon]
  | .print line values => .keywordAt .printWord line :: (ofExprs values ++ [.symbol .semicolon])
  | .declare target initializer =>
    .keyword .varWord :: .name target :: (ofInitializer initializer ++ [.symbol .semicolon])
  | .block body => .symbol .leftBrace :: (ofStmts body ++ [.symbol .rightBrace])
  | .branch condition whenTrue whenFalse =>
    .keyword .ifWord :: .symbol .leftParen ::
      (ofExpr condition ++ .symbol .rightParen :: (ofStmt whenTrue ++ ofElse whenFalse))
  | .whileLoop condition body =>
    .keyword .whileWord :: .symbol .leftParen ::
      (ofExpr condition ++ .symbol .rightParen :: ofStmt body)
  | .forLoop initializer condition increment body =>
    .keyword .forWord :: .symbol .leftParen ::
      (ofForInitializer initializer ++ (ofExpr? condition ++ .symbol .semicolon ::
        (ofExpr? increment ++ .symbol .rightParen :: ofStmt body)))
  | .function target parameters body =>
    .keyword .funWord :: .name target :: .symbol .leftParen ::
      (ofNames parameters ++ .symbol .rightParen :: .symbol .leftBrace ::
        (ofStmts body ++ [.symbol .rightBrace]))
  | .giveBack line value => .keywordAt .returnWord line :: (ofExpr? value ++ [.symbol .semicolon])

/-- Statements one after the other. -/
def ofStmts : List Stmt → List Mark
  | [] => []
  | first :: rest => ofStmt first ++ ofStmts rest

/-- The other branch of an `if`, when there is one. -/
def ofElse : Option Stmt → List Mark
  | none => []
  | some other => .keyword .elseWord :: ofStmt other

/-- What stands before the first semicolon of a `for`, with that semicolon. -/
def ofForInitializer : Option Stmt → List Mark
  | none => [.symbol .semicolon]
  | some initializer => ofStmt initializer

end

end Spelling

end ScopedScript

import ScopedScript.Token
namespace ScopedScript

/-!
# The sentences of the grammar

The grammar of programs as rules for words, which are lists of kinds of tokens.  It asks for less than the parser:
any operation may stand to the left of an equals sign, and lists of parameters and arguments may be of any length.

Every word that has been begun can be finished when a rule for it exists, so the words at the end of this module,
one for each phrase, say how.
-/

/-- A part of a sentence. -/
abbrev Word := List TokenKind

/-- The phrases of the grammar. -/
inductive Phrase where
  | declarations
  | declaration
  | variableDeclaration
  | statement
  | expressionStatement
  /-- What stands before the condition of a `for`. -/
  | forStart
  | block
  | parameters
  | parameters?
  | expression
  | expression?
  /-- Operators of one level between operands of the next.  The levels from 1 to 6 are `or`, `and`, equality,
  comparison, sums and products; the operands of products are of level 7. -/
  | operation (level : Nat)
  | unary
  | call
  | arguments
  | arguments?
  | primary
  deriving DecidableEq, Repr

namespace TokenKind

/-- The operators of a level. -/
def operators : Nat → List TokenKind
  | 1 => [.keyword .orWord]
  | 2 => [.keyword .andWord]
  | 3 => [.symbol .bangEqual, .symbol .equalEqual]
  | 4 => [.symbol .greater, .symbol .greaterEqual, .symbol .less, .symbol .lessEqual]
  | 5 => [.symbol .minus, .symbol .plus]
  | 6 => [.symbol .slash, .symbol .star]
  | _ => []

/-- The operators before an operand. -/
def signs : List TokenKind := [.symbol .bang, .symbol .minus]

/-- The tokens that are expressions on their own. -/
def isAtom : TokenKind → Bool
  | .number _ | .string _ | .identifier _ => true
  | .keyword .trueWord | .keyword .falseWord | .keyword .nilWord => true
  | _ => false

end TokenKind

/-- The rules of the grammar. -/
inductive Derives : Phrase → Word → Prop where
  -- declaration*
  | noDeclarations : Derives .declarations []
  | moreDeclarations {first rest : Word} : Derives .declaration first → Derives .declarations rest →
      Derives .declarations (first ++ rest)
  -- funDecl | varDecl | statement
  | function (name : String) {parameters body : Word} :
      Derives .parameters? parameters → Derives .block body →
      Derives .declaration (.keyword .funWord :: .identifier name :: .symbol .leftParen ::
        (parameters ++ .symbol .rightParen :: body))
  | ofVariable {word : Word} : Derives .variableDeclaration word → Derives .declaration word
  | ofStatement {word : Word} : Derives .statement word → Derives .declaration word
  -- "var" IDENT ( "=" expression )? ";"
  | blank (name : String) :
      Derives .variableDeclaration [.keyword .varWord, .identifier name, .symbol .semicolon]
  | initialized (name : String) {value : Word} : Derives .expression value →
      Derives .variableDeclaration
        (.keyword .varWord :: .identifier name :: .symbol .equal :: (value ++ [.symbol .semicolon]))
  -- exprStmt | printStmt | whileStmt | forStmt | ifStmt | block | returnStmt
  | ofExpression {word : Word} : Derives .expressionStatement word → Derives .statement word
  | print {values : Word} : Derives .arguments values →
      Derives .statement (.keyword .printWord :: (values ++ [.symbol .semicolon]))
  | whileLoop {test body : Word} : Derives .expression test → Derives .statement body →
      Derives .statement
        (.keyword .whileWord :: .symbol .leftParen :: (test ++ .symbol .rightParen :: body))
  | forLoop {first test increment body : Word} :
      Derives .forStart first → Derives .expression? test → Derives .expression? increment →
      Derives .statement body →
      Derives .statement (.keyword .forWord :: .symbol .leftParen ::
        (first ++ (test ++ .symbol .semicolon :: (increment ++ .symbol .rightParen :: body))))
  | branch {test whenTrue : Word} : Derives .expression test → Derives .statement whenTrue →
      Derives .statement
        (.keyword .ifWord :: .symbol .leftParen :: (test ++ .symbol .rightParen :: whenTrue))
  | branches {test whenTrue whenFalse : Word} :
      Derives .expression test → Derives .statement whenTrue → Derives .statement whenFalse →
      Derives .statement (.keyword .ifWord :: .symbol .leftParen ::
        (test ++ .symbol .rightParen :: (whenTrue ++ .keyword .elseWord :: whenFalse)))
  | ofBlock {word : Word} : Derives .block word → Derives .statement word
  | giveBack {value : Word} : Derives .expression? value →
      Derives .statement (.keyword .returnWord :: (value ++ [.symbol .semicolon]))
  -- expression ";"
  | evaluated {value : Word} : Derives .expression value →
      Derives .expressionStatement (value ++ [.symbol .semicolon])
  -- varDecl | exprStmt | ";"
  | startsDeclaring {word : Word} : Derives .variableDeclaration word → Derives .forStart word
  | startsEvaluating {word : Word} : Derives .expressionStatement word → Derives .forStart word
  | startsBlank : Derives .forStart [.symbol .semicolon]
  -- "{" declaration* "}"
  | braces {body : Word} : Derives .declarations body →
      Derives .block (.symbol .leftBrace :: (body ++ [.symbol .rightBrace]))
  -- IDENT ( "," IDENT )*
  | lastParameter (name : String) : Derives .parameters [.identifier name]
  | moreParameters (name : String) {rest : Word} : Derives .parameters rest →
      Derives .parameters (.identifier name :: .symbol .comma :: rest)
  | noParameters : Derives .parameters? []
  | someParameters {word : Word} : Derives .parameters word → Derives .parameters? word
  -- logic_or "=" assignment | logic_or
  | assignment {target value : Word} : Derives (.operation 1) target → Derives .expression value →
      Derives .expression (target ++ .symbol .equal :: value)
  | ofOperation {word : Word} : Derives (.operation 1) word → Derives .expression word
  | noExpression : Derives .expression? []
  | someExpression {word : Word} : Derives .expression word → Derives .expression? word
  -- operand ( operator operand )*
  | operate {level : Nat} {operator : TokenKind} {left right : Word} :
      operator ∈ TokenKind.operators level → Derives (.operation level) left →
      Derives (.operation (level + 1)) right → Derives (.operation level) (left ++ operator :: right)
  | ofOperand {level : Nat} {word : Word} : level < 7 → Derives (.operation (level + 1)) word →
      Derives (.operation level) word
  | ofUnary {word : Word} : Derives .unary word → Derives (.operation 7) word
  -- ( "!" | "-" ) unary | call
  | signed {sign : TokenKind} {operand : Word} : sign ∈ TokenKind.signs → Derives .unary operand →
      Derives .unary (sign :: operand)
  | ofCall {word : Word} : Derives .call word → Derives .unary word
  -- primary ( "(" arguments? ")" )*
  | ofPrimary {word : Word} : Derives .primary word → Derives .call word
  | apply {callee arguments : Word} : Derives .call callee → Derives .arguments? arguments →
      Derives .call (callee ++ .symbol .leftParen :: (arguments ++ [.symbol .rightParen]))
  -- expression ( "," expression )*
  | lastArgument {word : Word} : Derives .expression word → Derives .arguments word
  | moreArguments {first rest : Word} : Derives .expression first → Derives .arguments rest →
      Derives .arguments (first ++ .symbol .comma :: rest)
  | noArguments : Derives .arguments? []
  | someArguments {word : Word} : Derives .arguments word → Derives .arguments? word
  -- NUMBER | STRING | "true" | "false" | "nil" | IDENT | "(" expression ")"
  | atom {kind : TokenKind} : kind.isAtom = true → Derives .primary [kind]
  | group {inner : Word} : Derives .expression inner →
      Derives .primary (.symbol .leftParen :: (inner ++ [.symbol .rightParen]))

/-- A sentence is a program and the end of the text, which is told apart from all tokens. -/
def Sentence (word : List (Option TokenKind)) : Prop :=
  ∃ program, Derives .declarations program ∧ word = program.map some ++ [none]

/-! ## The shortest words -/

namespace Derives

theorem primary_nil : Derives .primary [.keyword .nilWord] := .atom rfl

theorem unary_nil : Derives .unary [.keyword .nilWord] := .ofCall (.ofPrimary primary_nil)

theorem operation_nil : ∀ {gap level : Nat}, level + gap = 7 → Derives (.operation level) [.keyword .nilWord]
  | 0, _, full => by
      cases full
      exact .ofUnary unary_nil
  | gap + 1, _, full => .ofOperand (by omega) (operation_nil ((Nat.succ_add_eq_add_succ _ gap).trans full))

theorem expression_nil : Derives .expression [.keyword .nilWord] := .ofOperation (operation_nil (Nat.add_comm 1 6))

theorem block_empty : Derives .block [.symbol .leftBrace, .symbol .rightBrace] := .braces .noDeclarations

theorem statement_empty : Derives .statement [.symbol .leftBrace, .symbol .rightBrace] := .ofBlock block_empty

end Derives

end ScopedScript

import ScopedScript.Syntax
import ScopedScript.Syntax.Complaint
namespace ScopedScript

/-!
# Expressions from tokens

Operators bind in six levels between assignment and the unary operators.  `chain` reads one operand and
then every operator of at least a given level, each with a right operand of the levels above its own;
so every level associates to the left.  Each rule returns the tokens behind what it read with the fact
that they are fewer than before, which is why reading ends.
-/

/-- What a rule read: a value, the next free reference identity, and the tokens behind it. -/
structure Read (α : Type) (bound : Nat) where
  value : α
  next : RefId
  rest : List Token
  shorter : rest.length < bound

namespace Read

variable {α β : Type} {bound outer : Nat} {token : Token} {rest : List Token}

/-- Read one token. -/
def one (token : Token) (rest : List Token) (value : α) (next : RefId) :
    Read α (token :: rest).length :=
  ⟨value, next, rest, Nat.lt_succ_self _⟩

/-- Read one token before what was read. -/
def after (read : Read α rest.length) : Read α (token :: rest).length :=
  ⟨read.value, read.next, read.rest, Nat.lt_succ_of_lt read.shorter⟩

/-- Read something else before what was read. -/
def behind (first : Read β bound) (read : Read α first.rest.length) : Read α bound :=
  ⟨read.value, read.next, read.rest, Nat.lt_trans read.shorter first.shorter⟩

/-- Read one more token. -/
def past (read : Read α bound) (follows : read.rest = token :: rest) : Read α bound :=
  ⟨read.value, read.next, rest, by
    have := read.shorter
    simp only [follows, List.length_cons] at this
    omega⟩

/-- Forget how much was read. -/
def widen (read : Read α bound) (fits : bound ≤ outer) : Read α outer :=
  ⟨read.value, read.next, read.rest, Nat.lt_of_lt_of_le read.shorter fits⟩

/-- Make a reference with a new identity of the value. -/
def refer (f : RefId → α → β) (read : Read α bound) : Read β bound :=
  ⟨f read.next read.value, read.next + 1, read.rest, read.shorter⟩

/-- Make something else of the value. -/
def map (f : α → β) (read : Read α bound) : Read β bound :=
  ⟨f read.value, read.next, read.rest, read.shorter⟩

end Read

/-- The answer of a rule. -/
abbrev Reading (α : Type) (bound : Nat) := Except SyntaxError (Read α bound)

/-- The most arguments of a call and the most parameters of a function. -/
def maxArity : Nat := 255

/-- An operator between two operands. -/
inductive Connective where
  | logical (op : LogicalOp)
  | binary (op : BinaryOp)
  deriving DecidableEq, Repr

namespace Connective

/-- The operator that a token stands for between two operands. -/
def ofKind? : TokenKind → Option Connective
  | .keyword .orWord => some (.logical .or)
  | .keyword .andWord => some (.logical .and)
  | .symbol .bangEqual => some (.binary .notEqual)
  | .symbol .equalEqual => some (.binary .equal)
  | .symbol .greater => some (.binary .greater)
  | .symbol .greaterEqual => some (.binary .greaterEqual)
  | .symbol .less => some (.binary .less)
  | .symbol .lessEqual => some (.binary .lessEqual)
  | .symbol .minus => some (.binary .subtract)
  | .symbol .plus => some (.binary .add)
  | .symbol .slash => some (.binary .divide)
  | .symbol .star => some (.binary .multiply)
  | _ => none

/-- How tightly an operator binds; a higher level binds tighter. -/
def level : Connective → Nat
  | logical .or => 1
  | logical .and => 2
  | binary .equal | binary .notEqual => 3
  | binary .greater | binary .greaterEqual | binary .less | binary .lessEqual => 4
  | binary .add | binary .subtract => 5
  | binary .multiply | binary .divide => 6

/-- The expression of an operator on the given line and its two operands. -/
def apply (connective : Connective) (line : Nat) (left right : Expr) : Expr :=
  match connective with
  | logical op => .logical op left right
  | binary op => .binary op line left right

end Connective

/-- The operator that a token stands for before an operand. -/
def UnaryOp.ofKind? : TokenKind → Option UnaryOp
  | .symbol .bang => some .not
  | .symbol .minus => some .negate
  | _ => none

/-- The constant that a token stands for. -/
def Constant.ofKind? : TokenKind → Option Constant
  | .keyword .falseWord => some (.truth false)
  | .keyword .trueWord => some (.truth true)
  | .keyword .nilWord => some .nil
  | .string body => some (.text body)
  | .number numeral => some (.number (Decimal.ofNumeral numeral.toList).toFloat)
  | _ => none

namespace Parser

/-- Refuse the next token. -/
def refuse {α : Type} (complaint : Complaint) (tokens : List Token) : Except SyntaxError α :=
  .error ⟨complaint, tokens.head?⟩

/-- Read one symbol; the value is its line. -/
def expect (wanted : Symbol) (complaint : Complaint) (tokens : List Token) (next : RefId) :
    Reading Nat tokens.length :=
  match tokens with
  | ⟨.symbol found, line⟩ :: rest =>
    if found = wanted then .ok (.one _ rest line next)
    else refuse complaint (⟨.symbol found, line⟩ :: rest)
  | tokens => refuse complaint tokens

/-- Read one name. -/
def identifier (complaint : Complaint) (tokens : List Token) (next : RefId) :
    Reading Identifier tokens.length :=
  match tokens with
  | ⟨.identifier name, line⟩ :: rest => .ok (.one _ rest ⟨name, line⟩ next)
  | tokens => refuse complaint tokens

mutual

/-- An assignment, or an expression without one.  Assignments nest to the right. -/
def expression (tokens : List Token) (next : RefId) : Reading Expr tokens.length := do
  let target ← chain 1 tokens next
  match follows : target.rest with
  | ⟨.symbol .equal, line⟩ :: rest =>
    let source ← expression (target.past follows).rest target.next
    match target.value with
    | .variable _ name =>
      return (target.past follows).behind (source.refer (.assign · name ·))
    | _ => refuse .assignmentTarget (⟨.symbol .equal, line⟩ :: rest)
  | _ => return target
termination_by tokens.length * 6 + 3
decreasing_by
  · omega
  · have := (target.past follows).shorter; omega

/-- An operand and all operators of at least the given level behind it. -/
def chain (level : Nat) (tokens : List Token) (next : RefId) : Reading Expr tokens.length := do
  let first ← unary tokens next
  chainTail level first.value first.rest first.next first.shorter
termination_by tokens.length * 6 + 2
decreasing_by
  · omega
  · have := first.shorter; omega

/-- The operators of at least the given level behind a left operand. -/
def chainTail {bound : Nat} (level : Nat) (left : Expr) (tokens : List Token) (next : RefId)
    (within : tokens.length < bound) : Reading Expr bound :=
  match tokens with
  | [] => .ok ⟨left, next, [], within⟩
  | token :: rest =>
    match Connective.ofKind? token.kind with
    | none => .ok ⟨left, next, token :: rest, within⟩
    | some connective =>
      if connective.level < level then .ok ⟨left, next, token :: rest, within⟩
      else do
        let right ← chain (connective.level + 1) rest next
        have fewer := Nat.lt_trans right.shorter (Nat.lt_of_succ_lt within)
        chainTail level (connective.apply token.line left right.value) right.rest right.next fewer
termination_by tokens.length * 6
decreasing_by
  · simp only [List.length_cons]; omega
  · have := right.shorter; simp only [List.length_cons]; omega

/-- Unary operators and what they apply to. -/
def unary (tokens : List Token) (next : RefId) : Reading Expr tokens.length :=
  match tokens with
  | [] => refuse .expression []
  | token :: rest =>
    match UnaryOp.ofKind? token.kind with
    | some op => do
      let operand ← unary rest next
      return (operand.map (.unary op token.line)).after
    | none => do
      let callee ← primary (token :: rest) next
      callTail callee.value callee.rest callee.next callee.shorter
termination_by tokens.length * 6 + 1
decreasing_by
  · simp only [List.length_cons]; omega
  · simp only [List.length_cons]; omega
  · have := callee.shorter; omega

/-- The argument lists behind a callee. -/
def callTail {bound : Nat} (callee : Expr) (tokens : List Token) (next : RefId)
    (within : tokens.length < bound) : Reading Expr bound :=
  match tokens with
  | ⟨.symbol .leftParen, _⟩ :: rest => do
    let list ← arguments rest next
    have fewer := Nat.lt_trans list.shorter (Nat.lt_of_succ_lt within)
    callTail (.call callee list.value.2 list.value.1) list.rest list.next fewer
  | tokens => .ok ⟨callee, next, tokens, within⟩
termination_by tokens.length * 6
decreasing_by
  · simp only [List.length_cons]; omega
  · have := list.shorter; simp only [List.length_cons]; omega

/-- The arguments of a call behind its opening parenthesis, and the line of the closing one. -/
def arguments (tokens : List Token) (next : RefId) : Reading (List Expr × Nat) tokens.length :=
  match tokens with
  | ⟨.symbol .rightParen, line⟩ :: rest => .ok (.one _ rest ([], line) next)
  | tokens => argumentList maxArity tokens next
termination_by tokens.length * 6 + 5

/-- At least one argument and at most as many as there is room for, and the line of the closing
parenthesis. -/
def argumentList (room : Nat) (tokens : List Token) (next : RefId) :
    Reading (List Expr × Nat) tokens.length :=
  match room with
  | 0 => refuse .tooManyArguments tokens
  | room + 1 => do
    let argument ← expression tokens next
    match follows : argument.rest with
    | ⟨.symbol .comma, _⟩ :: _ =>
      let others ← argumentList room (argument.past follows).rest argument.next
      return (argument.past follows).behind
        (others.map fun list => (argument.value :: list.1, list.2))
    | ⟨.symbol .rightParen, line⟩ :: _ =>
      return (argument.past follows).map fun last => ([last], line)
    | rest => refuse .argumentsClose rest
termination_by tokens.length * 6 + 4
decreasing_by
  · omega
  · have := (argument.past follows).shorter; omega

/-- Constants, variables and groups. -/
def primary (tokens : List Token) (next : RefId) : Reading Expr tokens.length :=
  match tokens with
  | [] => refuse .expression []
  | ⟨.identifier name, line⟩ :: rest =>
    .ok (.one _ rest (.variable next ⟨name, line⟩) (next + 1))
  | ⟨.symbol .leftParen, _⟩ :: rest => do
    let inner ← expression rest next
    let close ← expect .rightParen .groupClose inner.rest inner.next
    return (inner.behind (close.map fun _ => .group inner.value)).after
  | token :: rest =>
    match Constant.ofKind? token.kind with
    | some constant => .ok (.one _ rest (.constant constant) next)
    | none => refuse .expression (token :: rest)
termination_by tokens.length * 6

end

end Parser

end ScopedScript

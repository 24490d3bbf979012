import ScopedScript.Syntax.ExpressionParser
namespace ScopedScript

/-!
# Statements and programs from tokens

A program is a list of declarations up to the end of the text.  Declarations stand in programs, blocks
and function bodies only; the branches of `if` and the bodies of loops are statements, and an `else`
belongs to the nearest `if` before it.
-/

namespace Parser

/-- An expression and the symbol that must follow it. -/
def expressionThen (stop : Symbol) (complaint : Complaint) (tokens : List Token) (next : RefId) :
    Reading Expr tokens.length := do
  let value ← expression tokens next
  let close ← expect stop complaint value.rest value.next
  return value.behind (close.map fun _ => value.value)

/-- The symbol alone, or an expression and the symbol. -/
def optionalThen (stop : Symbol) (complaint : Complaint) (tokens : List Token) (next : RefId) :
    Reading (Option Expr) tokens.length :=
  match expect stop complaint tokens next with
  | .ok close => .ok (close.map fun _ => none)
  | .error _ => do
    let value ← expressionThen stop complaint tokens next
    return value.map some

/-- An expression between parentheses, as a condition. -/
def condition (opening closing : Complaint) (tokens : List Token) (next : RefId) :
    Reading Expr tokens.length := do
  let start ← expect .leftParen opening tokens next
  let value ← expressionThen .rightParen closing start.rest start.next
  return start.behind value

/-- The expressions of a `print` up to its semicolon, behind those already read in reverse. -/
def printList {bound : Nat} (done : List Expr) (tokens : List Token) (next : RefId)
    (within : tokens.length ≤ bound) : Reading (List Expr) bound := do
  let value ← expression tokens next
  match follows : value.rest with
  | ⟨.symbol .comma, _⟩ :: _ =>
    have fewer := Nat.le_trans (Nat.le_of_lt (value.past follows).shorter) within
    printList (value.value :: done) (value.past follows).rest value.next fewer
  | ⟨.symbol .semicolon, _⟩ :: _ =>
    return ((value.past follows).map fun last => (last :: done).reverse).widen within
  | rest => refuse .printEnd rest
termination_by tokens.length
decreasing_by have := (value.past follows).shorter; omega

/-- What stands behind a declared name, up to the semicolon. -/
def initializer (tokens : List Token) (next : RefId) : Reading (Option Expr) tokens.length :=
  match tokens with
  | ⟨.symbol .equal, _⟩ :: rest => do
    let value ← expressionThen .semicolon .declarationEnd rest next
    return (value.map some).after
  | tokens => do
    let close ← expect .semicolon .declarationEnd tokens next
    return close.map fun _ => none

/-- A variable declaration behind its keyword. -/
def variableDeclaration (tokens : List Token) (next : RefId) : Reading Stmt tokens.length := do
  let name ← identifier .variableName tokens next
  let initializer ← initializer name.rest name.next
  return name.behind (initializer.map (.declare name.value))

/-- An expression statement. -/
def expressionStatement (tokens : List Token) (next : RefId) : Reading Stmt tokens.length := do
  let value ← expressionThen .semicolon .expressionEnd tokens next
  return value.map .expression

/-- What may stand before the first semicolon of a `for`, with that semicolon. -/
def forInitializer (tokens : List Token) (next : RefId) :
    Reading (Option Stmt) tokens.length :=
  match tokens with
  | ⟨.symbol .semicolon, _⟩ :: rest => .ok (.one _ rest none next)
  | ⟨.keyword .varWord, _⟩ :: rest => do
    let declared ← variableDeclaration rest next
    return (declared.map some).after
  | tokens => do
    let value ← expressionStatement tokens next
    return value.map some

/-- What a `for` says between its parentheses. -/
structure ForHeader where
  initializer : Option Stmt
  condition : Option Expr
  increment : Option Expr

/-- The parentheses of a `for` and what is between them. -/
def forHeader (tokens : List Token) (next : RefId) : Reading ForHeader tokens.length := do
  let start ← expect .leftParen .forOpen tokens next
  let initializer ← forInitializer start.rest start.next
  let condition ← optionalThen .semicolon .forConditionEnd initializer.rest initializer.next
  let increment ← optionalThen .rightParen .forClose condition.rest condition.next
  let header := increment.map (ForHeader.mk initializer.value condition.value)
  return start.behind (initializer.behind (condition.behind header))

/-- At least one parameter and at most as many as there is room for, up to the closing parenthesis. -/
def parameterList (room : Nat) (tokens : List Token) (next : RefId) :
    Reading (List Identifier) tokens.length :=
  match room with
  | 0 => refuse .tooManyParameters tokens
  | room + 1 => do
    let name ← identifier .parameterName tokens next
    match follows : name.rest with
    | ⟨.symbol .comma, _⟩ :: _ =>
      let others ← parameterList room (name.past follows).rest name.next
      return (name.past follows).behind (others.map (name.value :: ·))
    | ⟨.symbol .rightParen, _⟩ :: _ => return (name.past follows).map ([·])
    | rest => refuse .parametersClose rest

/-- The parameters of a function behind the opening parenthesis. -/
def parameters (tokens : List Token) (next : RefId) :
    Reading (List Identifier) tokens.length :=
  match tokens with
  | ⟨.symbol .rightParen, _⟩ :: rest => .ok (.one _ rest [] next)
  | tokens => parameterList maxArity tokens next

/-- The name and the parameters of a function, up to the brace that opens its body. -/
def functionHeader (tokens : List Token) (next : RefId) :
    Reading (Identifier × List Identifier) tokens.length := do
  let name ← identifier .functionName tokens next
  let start ← expect .leftParen .parametersOpen name.rest name.next
  let list ← parameters start.rest start.next
  let brace ← expect .leftBrace .functionBody list.rest list.next
  let header := brace.map fun _ => (name.value, list.value)
  return name.behind (start.behind (list.behind header))

mutual

/-- A function, a variable or a statement. -/
def declaration (tokens : List Token) (next : RefId) : Reading Stmt tokens.length :=
  match tokens with
  | ⟨.keyword .funWord, _⟩ :: rest => do
    let header ← functionHeader rest next
    let body ← blockTail [] header.rest header.next (Nat.le_refl _)
    return (header.behind (body.map (.function header.value.1 header.value.2))).after
  | ⟨.keyword .varWord, _⟩ :: rest => do
    let declared ← variableDeclaration rest next
    return declared.after
  | tokens => statement tokens next
termination_by tokens.length * 3 + 1
decreasing_by
  · have := header.shorter; simp only [List.length_cons]; omega
  · omega

/-- A statement that declares nothing where it stands. -/
def statement (tokens : List Token) (next : RefId) : Reading Stmt tokens.length :=
  match tokens with
  | ⟨.keyword .forWord, _⟩ :: rest => do
    let header ← forHeader rest next
    let body ← statement header.rest header.next
    let loop := body.map (.forLoop header.value.initializer header.value.condition
      header.value.increment)
    return (header.behind loop).after
  | ⟨.keyword .ifWord, _⟩ :: rest => do
    let test ← condition .ifOpen .ifClose rest next
    let whenTrue ← statement test.rest test.next
    match follows : whenTrue.rest with
    | ⟨.keyword .elseWord, _⟩ :: _ =>
      let whenFalse ← statement (whenTrue.past follows).rest whenTrue.next
      let branch := whenFalse.map fun other =>
        Stmt.branch test.value whenTrue.value (some other)
      return (test.behind ((whenTrue.past follows).behind branch)).after
    | _ =>
      return (test.behind (whenTrue.map (.branch test.value · none))).after
  | ⟨.keyword .whileWord, _⟩ :: rest => do
    let test ← condition .whileOpen .whileClose rest next
    let body ← statement test.rest test.next
    return (test.behind (body.map (.whileLoop test.value))).after
  | ⟨.keyword .returnWord, line⟩ :: rest => do
    let value ← optionalThen .semicolon .returnEnd rest next
    return (value.map (.giveBack line)).after
  | ⟨.symbol .leftBrace, _⟩ :: rest => do
    let body ← blockTail [] rest next (Nat.le_refl _)
    return (body.map .block).after
  | ⟨.keyword .printWord, line⟩ :: rest => do
    let values ← printList [] rest next (Nat.le_refl _)
    return (values.map (.print line)).after
  | tokens => expressionStatement tokens next
termination_by tokens.length * 3
decreasing_by
  · have := header.shorter; simp only [List.length_cons]; omega
  · have := test.shorter; simp only [List.length_cons]; omega
  · have := test.shorter; have := (whenTrue.past follows).shorter
    simp only [List.length_cons]; omega
  · have := test.shorter; simp only [List.length_cons]; omega
  · simp only [List.length_cons]; omega

/-- The declarations from here to the closing brace, behind those already read in reverse. -/
def blockTail {bound : Nat} (done : List Stmt) (tokens : List Token) (next : RefId)
    (within : tokens.length ≤ bound) : Reading (List Stmt) bound :=
  match tokens with
  | [] => refuse .blockEnd []
  | ⟨.symbol .rightBrace, _⟩ :: rest =>
    .ok ⟨done.reverse, next, rest, Nat.lt_of_succ_le within⟩
  | tokens => do
    let first ← declaration tokens next
    have fewer : first.rest.length ≤ bound := Nat.le_trans (Nat.le_of_lt first.shorter) within
    blockTail (first.value :: done) first.rest first.next fewer
termination_by tokens.length * 3 + 2
decreasing_by
  · omega
  · have := first.shorter; omega

end

/-- The declarations up to the end of the text, behind those already read in reverse, and the next
free reference identity. -/
def program (done : List Stmt) (tokens : List Token) (next : RefId) :
    Except SyntaxError (List Stmt × RefId) :=
  match tokens with
  | [] => .ok (done.reverse, next)
  | tokens => do
    let first ← declaration tokens next
    program (first.value :: done) first.rest first.next
termination_by tokens.length
decreasing_by have := first.shorter; omega

end Parser

/-- The program that a sequence of tokens spells, with reference identities from `next` on, and the
next free one. -/
def parse (tokens : List Token) (next : RefId) : Except SyntaxError (List Stmt × RefId) :=
  Parser.program [] tokens next

end ScopedScript

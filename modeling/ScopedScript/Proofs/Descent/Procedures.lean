import ScopedScript.Proofs.Descent.Cursor
import ScopedScript.Syntax
namespace ScopedScript

/-!
# The parser as it moves its cursor

The rules of the grammar, written as steps of a cursor.  A loop is a procedure that calls itself for its next
turn and finishes what comes behind it after its last one; so a turn counts as an entry, like the call of a
rule.  Every call goes through `Calls`, which says what calls do: this keeps the recursion out of the rules,
and `run` ties the knot with as much fuel as it is given.

Looking for an operator in the table of a level is not a turn of a loop here.  It goes through a fixed
list and ends with it.
-/

namespace Descent

/-- What may be called: a rule, or a turn of a loop with what the turns before it have read. -/
inductive Procedure where
  | programLoop (done : List Stmt)
  | declaration
  | statement
  | parameterLoop (done : List Identifier)
  | blockLoop (done : List Stmt)
  | printLoop (done : List Expr)
  | expression
  | assignment
  | level (level : Level)
  | levelLoop (level : Level) (left : Expr)
  | unary
  | callLoop (callee : Expr)
  | argumentLoop (done : List Expr)

namespace Procedure

/-- What a procedure reads.  Behind arguments stands the line of their closing parenthesis. -/
abbrev Result : Procedure → Type
  | programLoop _ | blockLoop _ => List Stmt
  | declaration | statement => Stmt
  | parameterLoop _ => List Identifier
  | printLoop _ => List Expr
  | argumentLoop _ => List Expr × Nat
  | _ => Expr

/-- The label under which a procedure is entered. -/
def label : Procedure → Label
  | programLoop _ => .programLoop
  | declaration => .declaration
  | statement => .statement
  | parameterLoop _ => .parameterLoop
  | blockLoop _ => .blockLoop
  | printLoop _ => .printLoop
  | expression => .expression
  | assignment => .assignment
  | level l => .level l
  | levelLoop l _ => .levelLoop l
  | unary => .unary
  | callLoop _ => .callLoop
  | argumentLoop _ => .argumentLoop

end Procedure

/-- What the calls of procedures do. -/
abbrev Calls : Type := (procedure : Procedure) → Parsing procedure.Result

/-! ## Expressions -/

/-- The operators of a level, in the order in which they are looked for. -/
def Level.operators : Level → List (Wanted × Connective)
  | or => [(.keyword .orWord, .logical .or)]
  | and => [(.keyword .andWord, .logical .and)]
  | equality => [(.symbol .bangEqual, .binary .notEqual), (.symbol .equalEqual, .binary .equal)]
  | comparison =>
    [(.symbol .greater, .binary .greater), (.symbol .greaterEqual, .binary .greaterEqual),
      (.symbol .less, .binary .less), (.symbol .lessEqual, .binary .lessEqual)]
  | term => [(.symbol .minus, .binary .subtract), (.symbol .plus, .binary .add)]
  | factor => [(.symbol .slash, .binary .divide), (.symbol .star, .binary .multiply)]

/-- Move the cursor over the first operator of a table that stands under it. -/
def acceptOperator : List (Wanted × Connective) → Parsing (Option Connective)
  | [] => return none
  | (wanted, connective) :: others => do
    if ← accept wanted then
      return some connective
    else
      acceptOperator others

/-- The constant of a literal. -/
def constantOf : TokenLiteral → Constant
  | .number value => .number value
  | .text body => .text body

section

variable (call : Calls)

/-- An operand of a level: what the next level reads. -/
def operand : Level → Parsing Expr
  | .or => call (.level .and)
  | .and => call (.level .equality)
  | .equality => call (.level .comparison)
  | .comparison => call (.level .term)
  | .term => call (.level .factor)
  | .factor => call .unary

/-- An assignment.  What stands before the sign is read as an expression first. -/
def assignment : Parsing Expr := do
  let target ← call (.level .or)
  if ← accept (.symbol .equal) then
    let equals ← previous
    let value ← call .assignment
    match target with
    | .variable _ name =>
      let ref ← fresh
      return .assign ref name value
    | _ => refuseAt (some equals) .assignmentTarget
  else
    return target

/-- A level: one operand, and then the loop over its operators. -/
def level (level : Level) : Parsing Expr := do
  let left ← operand call level
  call (.levelLoop level left)

/-- One turn over the operators of a level.  Only the binary ones remember their line. -/
def levelLoop (level : Level) (left : Expr) : Parsing Expr := do
  match ← acceptOperator level.operators with
  | none => return left
  | some (.logical op) =>
    let right ← operand call level
    call (.levelLoop level (.logical op left right))
  | some (.binary op) =>
    let token ← previous
    let right ← operand call level
    call (.levelLoop level (.binary op token.line left right))

/-- What a group has behind its opening parenthesis. -/
def group : Parsing Expr := do
  let inner ← call .expression
  let _ ← consume (.symbol .rightParen) .groupClose
  return .group inner

/-- A name, a group, or nothing that an expression could begin with. -/
def nameOrGroup : Parsing Expr := do
  if ← accept .name then
    let token ← previous
    let ref ← fresh
    return .variable ref ⟨token.kind.lexeme, token.line⟩
  else if ← accept (.symbol .leftParen) then
    group call
  else
    refuse .expression

/-- A constant, a variable or a group. -/
def primary : Parsing Expr := do
  if ← accept (.keyword .falseWord) then
    return .constant (.truth false)
  else if ← accept (.keyword .trueWord) then
    return .constant (.truth true)
  else if ← accept (.keyword .nilWord) then
    return .constant .nil
  else
    let found ← peek
    match found.bind (·.kind.literal?) with
    | some literal =>
      let _ ← advance
      return .constant (constantOf literal)
    | none => nameOrGroup call

/-- A unary operator behind which the cursor stands, and what it applies to. -/
def applied (op : UnaryOp) : Parsing Expr := do
  let token ← previous
  let right ← call .unary
  return .unary op token.line right

/-- Unary operators, or a callee and the loop over its argument lists. -/
def unary : Parsing Expr := do
  if ← accept (.symbol .bang) then
    applied call .not
  else if ← accept (.symbol .minus) then
    applied call .negate
  else
    let callee ← primary call
    call (.callLoop callee)

/-- The arguments behind an opening parenthesis, and the line of the closing one. -/
def arguments : Parsing (List Expr × Nat) := do
  if ← check (.symbol .rightParen) then
    let paren ← consume (.symbol .rightParen) .argumentsClose
    return ([], paren.line)
  else
    call (.argumentLoop [])

/-- One turn over the argument lists behind a callee. -/
def callLoop (callee : Expr) : Parsing Expr := do
  if ← accept (.symbol .leftParen) then
    let list ← arguments call
    call (.callLoop (.call callee list.2 list.1))
  else
    return callee

/-- One turn over the arguments of a call. -/
def argumentLoop (done : List Expr) : Parsing (List Expr × Nat) := do
  if maxArity ≤ done.length then
    refuse .tooManyArguments
  else
    let argument ← call .expression
    if ← accept (.symbol .comma) then
      call (.argumentLoop (done ++ [argument]))
    else
      let paren ← consume (.symbol .rightParen) .argumentsClose
      return (done ++ [argument], paren.line)

/-! ## Statements -/

/-- An expression and the symbol that must follow it. -/
def expressionThen (stop : Symbol) (complaint : Complaint) : Parsing Expr := do
  let value ← call .expression
  let _ ← consume (.symbol stop) complaint
  return value

/-- An expression, unless the symbol that must follow it stands there already. -/
def optionalThen (stop : Symbol) (complaint : Complaint) : Parsing (Option Expr) := do
  if ← check (.symbol stop) then
    let _ ← consume (.symbol stop) complaint
    return none
  else
    let value ← expressionThen call stop complaint
    return some value

/-- An expression between parentheses. -/
def condition (opening closing : Complaint) : Parsing Expr := do
  let _ ← consume (.symbol .leftParen) opening
  expressionThen call .rightParen closing

/-- What stands behind a declared name, up to the semicolon. -/
def initializer : Parsing (Option Expr) := do
  if ← accept (.symbol .equal) then
    let value ← expressionThen call .semicolon .declarationEnd
    return some value
  else
    let _ ← consume (.symbol .semicolon) .declarationEnd
    return none

/-- A variable declaration behind its keyword. -/
def variableDeclaration : Parsing Stmt := do
  let name ← identifier .variableName
  let value ← initializer call
  return .declare name value

/-- An expression statement. -/
def expressionStatement : Parsing Stmt := do
  let value ← expressionThen call .semicolon .expressionEnd
  return .expression value

/-- What may stand before the first semicolon of a `for`, with that semicolon. -/
def forInitializer : Parsing (Option Stmt) := do
  if ← accept (.symbol .semicolon) then
    return none
  else if ← accept (.keyword .varWord) then
    let declared ← variableDeclaration call
    return some declared
  else
    let value ← expressionStatement call
    return some value

/-- A `for` behind its keyword. -/
def forStatement : Parsing Stmt := do
  let _ ← consume (.symbol .leftParen) .forOpen
  let first ← forInitializer call
  let test ← optionalThen call .semicolon .forConditionEnd
  let increment ← optionalThen call .rightParen .forClose
  let body ← call .statement
  return .forLoop first test increment body

/-- An `if` behind its keyword. -/
def ifStatement : Parsing Stmt := do
  let test ← condition call .ifOpen .ifClose
  let whenTrue ← call .statement
  if ← accept (.keyword .elseWord) then
    let whenFalse ← call .statement
    return .branch test whenTrue (some whenFalse)
  else
    return .branch test whenTrue none

/-- A `while` behind its keyword. -/
def whileStatement : Parsing Stmt := do
  let test ← condition call .whileOpen .whileClose
  let body ← call .statement
  return .whileLoop test body

/-- A `return` behind its keyword. -/
def returnStatement : Parsing Stmt := do
  let token ← previous
  let value ← optionalThen call .semicolon .returnEnd
  return .giveBack token.line value

/-- A `print` behind its keyword. -/
def printStatement : Parsing Stmt := do
  let token ← previous
  let first ← call .expression
  let values ← call (.printLoop [first])
  return .print token.line values

/-- One turn over the expressions of a `print`. -/
def printLoop (done : List Expr) : Parsing (List Expr) := do
  if ← accept (.symbol .comma) then
    let value ← call .expression
    call (.printLoop (done ++ [value]))
  else
    let _ ← consume (.symbol .semicolon) .printEnd
    return done

/-- A block behind its opening brace. -/
def block : Parsing Stmt := do
  let body ← call (.blockLoop [])
  return .block body

/-- A statement. -/
def statement : Parsing Stmt := do
  if ← accept (.keyword .forWord) then
    forStatement call
  else if ← accept (.keyword .ifWord) then
    ifStatement call
  else if ← accept (.keyword .whileWord) then
    whileStatement call
  else if ← accept (.keyword .returnWord) then
    returnStatement call
  else if ← accept (.symbol .leftBrace) then
    block call
  else if ← accept (.keyword .printWord) then
    printStatement call
  else
    expressionStatement call

/-! ## Declarations and lists of them -/

/-- One turn over the parameters of a function. -/
def parameterLoop (done : List Identifier) : Parsing (List Identifier) := do
  if maxArity ≤ done.length then
    refuse .tooManyParameters
  else
    let name ← identifier .parameterName
    if ← accept (.symbol .comma) then
      call (.parameterLoop (done ++ [name]))
    else
      let _ ← consume (.symbol .rightParen) .parametersClose
      return done ++ [name]

/-- The parameters of a function behind the opening parenthesis. -/
def parameters : Parsing (List Identifier) := do
  if ← check (.symbol .rightParen) then
    let _ ← consume (.symbol .rightParen) .parametersClose
    return []
  else
    call (.parameterLoop [])

/-- A function behind its keyword. -/
def function : Parsing Stmt := do
  let name ← identifier .functionName
  let _ ← consume (.symbol .leftParen) .parametersOpen
  let list ← parameters call
  let _ ← consume (.symbol .leftBrace) .functionBody
  let body ← call (.blockLoop [])
  return .function name list body

/-- A declaration.  The token that it begins with is looked at for the log. -/
def declaration : Parsing Stmt := do
  let _ ← peek
  if ← accept (.keyword .funWord) then
    function call
  else if ← accept (.keyword .varWord) then
    variableDeclaration call
  else
    call .statement

/-- Whether a block goes on: neither its closing brace nor the end of the text stands there. -/
def blockGoesOn : Parsing Bool := do
  if ← check (.symbol .rightBrace) then
    return false
  else
    let atEnd ← isAtEnd
    return !atEnd

/-- One turn over the declarations of a block. -/
def blockLoop (done : List Stmt) : Parsing (List Stmt) := do
  if ← blockGoesOn then
    let first ← call .declaration
    call (.blockLoop (done ++ [first]))
  else
    let _ ← consume (.symbol .rightBrace) .blockEnd
    return done

/-- One turn over the declarations of a program. -/
def programLoop (done : List Stmt) : Parsing (List Stmt) := do
  if ← isAtEnd then
    return done
  else
    let first ← call .declaration
    call (.programLoop (done ++ [first]))

/-! ## The whole parser -/

/-- What a procedure does, given what its calls do. -/
def body : (procedure : Procedure) → Parsing procedure.Result
  | .programLoop done => programLoop call done
  | .declaration => declaration call
  | .statement => statement call
  | .parameterLoop done => parameterLoop call done
  | .blockLoop done => blockLoop call done
  | .printLoop done => printLoop call done
  | .expression => call .assignment
  | .assignment => assignment call
  | .level l => level call l
  | .levelLoop l left => levelLoop call l left
  | .unary => unary call
  | .callLoop callee => callLoop call callee
  | .argumentLoop done => argumentLoop call done

end

/-- Procedures that may call each other as deep as there is fuel. -/
def run : Nat → Calls
  | 0, _ => fun _ _ _ => .unfinished
  | fuel + 1, procedure => enter procedure.label (body (run fuel) procedure)

/-- The program that tokens spell, read by a cursor from the first of them on. -/
def parse (fuel : Nat) (tokens : List Token) (next : RefId) : Outcome (List Stmt) :=
  run fuel (.programLoop []) tokens [] ⟨0, next, []⟩

end Descent

end ScopedScript

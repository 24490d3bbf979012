import ScopedScript.Proofs.Grammar.ExpressionRules
import ScopedScript.Syntax.ProgramParser
namespace ScopedScript

/-!
# What the rules for statements answer

The same for statements, declarations and programs.  The parser collects the parts of a list in reverse
behind those it already has; without its bound a list rule simply puts each part in front of the others.
-/

namespace Parsed

/-- Make something else of what was read. -/
def map {α β : Type} (f : α → β) (out : Parsed α) : Parsed β := ⟨f out.value, out.next, out.rest⟩

end Parsed

namespace Rule

open ScopedScript.Parser

/-! ## Parts of statements -/

/-- An expression and the symbol that must follow it. -/
def expressionThen (stop : Symbol) (complaint : Complaint) (tokens : List Token) (next : RefId) :
    Except SyntaxError (Parsed Expr) :=
  (Parser.expressionThen stop complaint tokens next).parsed

/-- The symbol alone, or an expression and the symbol. -/
def optionalThen (stop : Symbol) (complaint : Complaint) (tokens : List Token) (next : RefId) :
    Except SyntaxError (Parsed (Option Expr)) :=
  (Parser.optionalThen stop complaint tokens next).parsed

/-- An expression between parentheses. -/
def condition (opening closing : Complaint) (tokens : List Token) (next : RefId) :
    Except SyntaxError (Parsed Expr) :=
  (Parser.condition opening closing tokens next).parsed

/-- The expressions of a `print` up to its semicolon. -/
def printList (tokens : List Token) (next : RefId) : Except SyntaxError (Parsed (List Expr)) :=
  (Parser.printList [] tokens next (length_le_self tokens)).parsed

/-- What stands behind a declared name, up to the semicolon. -/
def initializer (tokens : List Token) (next : RefId) :
    Except SyntaxError (Parsed (Option Expr)) :=
  (Parser.initializer tokens next).parsed

/-- A variable declaration behind its keyword. -/
def variableDeclaration (tokens : List Token) (next : RefId) : Except SyntaxError (Parsed Stmt) :=
  (Parser.variableDeclaration tokens next).parsed

/-- An expression statement. -/
def expressionStatement (tokens : List Token) (next : RefId) : Except SyntaxError (Parsed Stmt) :=
  (Parser.expressionStatement tokens next).parsed

/-- What may stand before the first semicolon of a `for`, with that semicolon. -/
def forInitializer (tokens : List Token) (next : RefId) :
    Except SyntaxError (Parsed (Option Stmt)) :=
  (Parser.forInitializer tokens next).parsed

/-- The parentheses of a `for` and what is between them. -/
def forHeader (tokens : List Token) (next : RefId) : Except SyntaxError (Parsed ForHeader) :=
  (Parser.forHeader tokens next).parsed

/-- At least one parameter and at most as many as there is room for. -/
def parameterList (room : Nat) (tokens : List Token) (next : RefId) :
    Except SyntaxError (Parsed (List Identifier)) :=
  (Parser.parameterList room tokens next).parsed

/-- The parameters of a function behind the opening parenthesis. -/
def parameters (tokens : List Token) (next : RefId) :
    Except SyntaxError (Parsed (List Identifier)) :=
  (Parser.parameters tokens next).parsed

/-- The name and the parameters of a function, up to the brace that opens its body. -/
def functionHeader (tokens : List Token) (next : RefId) :
    Except SyntaxError (Parsed (Identifier × List Identifier)) :=
  (Parser.functionHeader tokens next).parsed

theorem expressionThen_eq (stop : Symbol) (complaint : Complaint) (tokens : List Token)
    (next : RefId) :
    expressionThen stop complaint tokens next = (do
      let value ← expression tokens next
      let close ← expect stop complaint value.rest value.next
      .ok ⟨value.value, close.next, close.rest⟩) :=
  Reading.parsed_bind fun _ => Reading.parsed_bind fun _ => rfl

theorem optionalThen_eq (stop : Symbol) (complaint : Complaint) (tokens : List Token)
    (next : RefId) :
    optionalThen stop complaint tokens next = (
      match expect stop complaint tokens next with
      | .ok close => .ok ⟨none, close.next, close.rest⟩
      | .error _ => do
        let value ← expressionThen stop complaint tokens next
        .ok ⟨some value.value, value.next, value.rest⟩) := by
  unfold optionalThen expect Parser.optionalThen
  cases Parser.expect stop complaint tokens next with
  | ok close => rfl
  | error _ => exact Reading.parsed_bind fun _ => rfl

theorem condition_eq (opening closing : Complaint) (tokens : List Token) (next : RefId) :
    condition opening closing tokens next = (do
      let start ← expect .leftParen opening tokens next
      expressionThen .rightParen closing start.rest start.next) := by
  refine Reading.parsed_bind fun start => ?_
  cases found : Parser.expressionThen .rightParen closing start.rest start.next <;>
    simp only [found, Read.parsed, expressionThen] <;> rfl

/-- Putting two lists in front, one after the other, is putting them in front together. -/
private theorem map_map_append {α : Type} (first second both : List α)
    (joined : both = first ++ second) (answer : Except SyntaxError (Parsed (List α))) :
    answer.map (Parsed.map (both ++ ·)) =
      (answer.map (Parsed.map (second ++ ·))).map (Parsed.map (first ++ ·)) := by
  subst joined
  cases answer with
  | error _ => rfl
  | ok out => simp only [Except.map, Parsed.map, List.append_assoc]

/-- Expressions already read stand in front of the others. -/
private theorem printList_done {bound : Nat} (done : List Expr) (tokens : List Token) (next : RefId)
    (within : tokens.length ≤ bound) :
    (Parser.printList done tokens next within).parsed =
      (printList tokens next).map (Parsed.map (done.reverse ++ ·)) := by
  unfold printList Parser.printList
  cases Parser.expression tokens next with
  | error _ => rfl
  | ok value =>
      rcases value with ⟨value, next', rest, shorter⟩
      dsimp only [bind, Except.bind]
      split
      · rename_i behind
        refine (printList_done (value :: done) behind next' _).trans ?_
        refine (map_map_append done.reverse [value] _ List.reverse_cons _).trans ?_
        exact congrArg (Except.map _) (printList_done [value] behind next' _).symm
      · simp [Reading.parsed, pure, Except.pure, Except.map, Read.parsed, Read.widen, Read.map,
          Read.past, Parsed.map]
      · rfl
termination_by tokens.length
decreasing_by all_goals simp only [List.length_cons] at shorter; omega

theorem printList_eq (tokens : List Token) (next : RefId) :
    printList tokens next = (do
      let value ← expression tokens next
      match value.rest with
      | ⟨.symbol .comma, _⟩ :: behind =>
        let others ← printList behind value.next
        .ok ⟨value.value :: others.value, others.next, others.rest⟩
      | ⟨.symbol .semicolon, _⟩ :: behind => .ok ⟨[value.value], value.next, behind⟩
      | rest => refuse .printEnd rest) := by
  unfold printList expression
  rw [Parser.printList.eq_def]
  refine Reading.parsed_bind fun value => ?_
  rcases value with ⟨value, next', rest, shorter⟩
  rcases rest with _ | ⟨⟨kind, line⟩, behind⟩
  · rfl
  · cases kind with
    | symbol s =>
        cases s with
        | comma =>
            refine (printList_done [value] behind next' _).trans ?_
            change (printList behind next').map _ = (printList behind next' >>= _)
            cases printList behind next' <;> rfl
        | _ => rfl
    | _ => rfl

theorem initializer_eq (tokens : List Token) (next : RefId) :
    initializer tokens next = (
      match tokens with
      | ⟨.symbol .equal, _⟩ :: rest => do
        let value ← expressionThen .semicolon .declarationEnd rest next
        .ok ⟨some value.value, value.next, value.rest⟩
      | tokens => do
        let close ← expect .semicolon .declarationEnd tokens next
        .ok ⟨none, close.next, close.rest⟩) := by
  unfold initializer Parser.initializer
  rcases tokens with _ | ⟨⟨kind, line⟩, rest⟩
  · rfl
  · cases kind with
    | symbol s => cases s <;> exact Reading.parsed_bind fun _ => rfl
    | _ => rfl

theorem variableDeclaration_eq (tokens : List Token) (next : RefId) :
    variableDeclaration tokens next = (do
      let name ← identifier .variableName tokens next
      let value ← initializer name.rest name.next
      .ok ⟨.declare name.value value.value, value.next, value.rest⟩) :=
  Reading.parsed_bind fun _ => Reading.parsed_bind fun _ => rfl

theorem expressionStatement_eq (tokens : List Token) (next : RefId) :
    expressionStatement tokens next = (do
      let value ← expressionThen .semicolon .expressionEnd tokens next
      .ok ⟨.expression value.value, value.next, value.rest⟩) :=
  Reading.parsed_bind fun _ => rfl

theorem forInitializer_eq (tokens : List Token) (next : RefId) :
    forInitializer tokens next = (
      match tokens with
      | ⟨.symbol .semicolon, _⟩ :: rest => .ok ⟨none, next, rest⟩
      | ⟨.keyword .varWord, _⟩ :: rest => do
        let declared ← variableDeclaration rest next
        .ok ⟨some declared.value, declared.next, declared.rest⟩
      | tokens => do
        let value ← expressionStatement tokens next
        .ok ⟨some value.value, value.next, value.rest⟩) := by
  unfold forInitializer Parser.forInitializer
  rcases tokens with _ | ⟨⟨kind, line⟩, rest⟩
  · exact Reading.parsed_bind fun _ => rfl
  · cases kind with
    | symbol s =>
        cases s with
        | semicolon => rfl
        | _ => exact Reading.parsed_bind fun _ => rfl
    | keyword k => cases k <;> exact Reading.parsed_bind fun _ => rfl
    | _ => exact Reading.parsed_bind fun _ => rfl

theorem forHeader_eq (tokens : List Token) (next : RefId) :
    forHeader tokens next = (do
      let start ← expect .leftParen .forOpen tokens next
      let first ← forInitializer start.rest start.next
      let condition ← optionalThen .semicolon .forConditionEnd first.rest first.next
      let increment ← optionalThen .rightParen .forClose condition.rest condition.next
      .ok ⟨⟨first.value, condition.value, increment.value⟩, increment.next, increment.rest⟩) :=
  Reading.parsed_bind fun _ => Reading.parsed_bind fun _ => Reading.parsed_bind fun _ =>
    Reading.parsed_bind fun _ => rfl

theorem parameterList_eq (room : Nat) (tokens : List Token) (next : RefId) :
    parameterList room tokens next = (
      match room with
      | 0 => refuse .tooManyParameters tokens
      | room + 1 => do
        let name ← identifier .parameterName tokens next
        match name.rest with
        | ⟨.symbol .comma, _⟩ :: behind =>
          let others ← parameterList room behind name.next
          .ok ⟨name.value :: others.value, others.next, others.rest⟩
        | ⟨.symbol .rightParen, _⟩ :: behind => .ok ⟨[name.value], name.next, behind⟩
        | rest => refuse .parametersClose rest) := by
  cases room with
  | zero => rfl
  | succ room =>
      refine Reading.parsed_bind fun name => ?_
      rcases name with ⟨value, next', rest, shorter⟩
      rcases rest with _ | ⟨⟨kind, line⟩, behind⟩
      · rfl
      · cases kind with
        | symbol s =>
            cases s with
            | comma => exact Reading.parsed_bind fun _ => rfl
            | _ => rfl
        | _ => rfl

theorem parameters_eq (tokens : List Token) (next : RefId) :
    parameters tokens next = (
      match tokens with
      | ⟨.symbol .rightParen, _⟩ :: rest => .ok ⟨[], next, rest⟩
      | tokens => parameterList maxArity tokens next) := by
  unfold parameters Parser.parameters
  rcases tokens with _ | ⟨⟨kind, line⟩, rest⟩
  · rfl
  · cases kind with
    | symbol s => cases s <;> rfl
    | _ => rfl

theorem functionHeader_eq (tokens : List Token) (next : RefId) :
    functionHeader tokens next = (do
      let name ← identifier .functionName tokens next
      let start ← expect .leftParen .parametersOpen name.rest name.next
      let list ← parameters start.rest start.next
      let brace ← expect .leftBrace .functionBody list.rest list.next
      .ok ⟨(name.value, list.value), brace.next, brace.rest⟩) :=
  Reading.parsed_bind fun _ => Reading.parsed_bind fun _ => Reading.parsed_bind fun _ =>
    Reading.parsed_bind fun _ => rfl

/-! ## Statements, declarations and lists of them -/

/-- A function, a variable or a statement. -/
def declaration (tokens : List Token) (next : RefId) : Except SyntaxError (Parsed Stmt) :=
  (Parser.declaration tokens next).parsed

/-- A statement that declares nothing where it stands. -/
def statement (tokens : List Token) (next : RefId) : Except SyntaxError (Parsed Stmt) :=
  (Parser.statement tokens next).parsed

/-- The declarations from here to the closing brace. -/
def block (tokens : List Token) (next : RefId) : Except SyntaxError (Parsed (List Stmt)) :=
  (Parser.blockTail [] tokens next (length_le_self tokens)).parsed

theorem declaration_eq (tokens : List Token) (next : RefId) :
    declaration tokens next = (
      match tokens with
      | ⟨.keyword .funWord, _⟩ :: rest => do
        let header ← functionHeader rest next
        let body ← block header.rest header.next
        .ok ⟨.function header.value.1 header.value.2 body.value, body.next, body.rest⟩
      | ⟨.keyword .varWord, _⟩ :: rest => variableDeclaration rest next
      | tokens => statement tokens next) := by
  unfold declaration Parser.declaration
  rcases tokens with _ | ⟨⟨kind, line⟩, rest⟩
  · rfl
  · cases kind with
    | keyword k =>
        cases k with
        | funWord => exact Reading.parsed_bind fun _ => Reading.parsed_bind fun _ => rfl
        | varWord =>
            change Reading.parsed (Parser.variableDeclaration rest next >>= _) =
              (Parser.variableDeclaration rest next).parsed
            cases Parser.variableDeclaration rest next <;> rfl
        | _ => rfl
    | _ => rfl

theorem statement_eq (tokens : List Token) (next : RefId) :
    statement tokens next = (
      match tokens with
      | ⟨.keyword .forWord, _⟩ :: rest => do
        let header ← forHeader rest next
        let body ← statement header.rest header.next
        .ok ⟨.forLoop header.value.initializer header.value.condition header.value.increment
          body.value, body.next, body.rest⟩
      | ⟨.keyword .ifWord, _⟩ :: rest => do
        let test ← condition .ifOpen .ifClose rest next
        let whenTrue ← statement test.rest test.next
        match whenTrue.rest with
        | ⟨.keyword .elseWord, _⟩ :: behind =>
          let whenFalse ← statement behind whenTrue.next
          .ok ⟨.branch test.value whenTrue.value (some whenFalse.value), whenFalse.next,
            whenFalse.rest⟩
        | _ => .ok ⟨.branch test.value whenTrue.value none, whenTrue.next, whenTrue.rest⟩
      | ⟨.keyword .whileWord, _⟩ :: rest => do
        let test ← condition .whileOpen .whileClose rest next
        let body ← statement test.rest test.next
        .ok ⟨.whileLoop test.value body.value, body.next, body.rest⟩
      | ⟨.keyword .returnWord, line⟩ :: rest => do
        let value ← optionalThen .semicolon .returnEnd rest next
        .ok ⟨.giveBack line value.value, value.next, value.rest⟩
      | ⟨.symbol .leftBrace, _⟩ :: rest => do
        let body ← block rest next
        .ok ⟨.block body.value, body.next, body.rest⟩
      | ⟨.keyword .printWord, line⟩ :: rest => do
        let values ← printList rest next
        .ok ⟨.print line values.value, values.next, values.rest⟩
      | tokens => expressionStatement tokens next) := by
  rw [statement]
  unfold Parser.statement
  rcases tokens with _ | ⟨⟨kind, line⟩, rest⟩
  · rfl
  · cases kind with
    | symbol s =>
        cases s with
        | leftBrace => exact Reading.parsed_bind fun _ => rfl
        | _ => rfl
    | keyword k =>
        cases k with
        | forWord => exact Reading.parsed_bind fun _ => Reading.parsed_bind fun _ => rfl
        | ifWord =>
            refine Reading.parsed_bind fun test => Reading.parsed_bind fun whenTrue => ?_
            rcases whenTrue with ⟨value, next', rest, shorter⟩
            rcases rest with _ | ⟨⟨kind, line⟩, behind⟩
            · rfl
            · cases kind with
              | keyword k =>
                  cases k with
                  | elseWord => exact Reading.parsed_bind fun _ => rfl
                  | _ => rfl
              | _ => rfl
        | whileWord => exact Reading.parsed_bind fun _ => Reading.parsed_bind fun _ => rfl
        | returnWord => exact Reading.parsed_bind fun _ => rfl
        | printWord => exact Reading.parsed_bind fun _ => rfl
        | _ => rfl
    | _ => rfl

/-- Declarations already read stand in front of the others. -/
private theorem blockTail_done {bound : Nat} (done : List Stmt) (tokens : List Token) (next : RefId)
    (within : tokens.length ≤ bound) :
    (Parser.blockTail done tokens next within).parsed =
      (block tokens next).map (Parsed.map (done.reverse ++ ·)) := by
  unfold block Parser.blockTail
  split
  · rfl
  · simp [Reading.parsed, Except.map, Read.parsed, Parsed.map]
  · rename_i notEmpty notClosed
    split
    · exact absurd HEq.rfl (notEmpty _ rfl)
    · exact absurd HEq.rfl (notClosed _ _ _ rfl)
    · cases Parser.declaration tokens next with
      | error _ => rfl
      | ok first =>
          have := first.shorter
          refine (blockTail_done (first.value :: done) first.rest first.next _).trans ?_
          refine (map_map_append done.reverse [first.value] _ List.reverse_cons _).trans ?_
          exact congrArg (Except.map _) (blockTail_done [first.value] first.rest first.next _).symm
termination_by tokens.length

theorem block_eq (tokens : List Token) (next : RefId) :
    block tokens next = (
      match tokens with
      | [] => refuse .blockEnd []
      | ⟨.symbol .rightBrace, _⟩ :: rest => .ok ⟨[], next, rest⟩
      | tokens => do
        let first ← declaration tokens next
        let others ← block first.rest first.next
        .ok ⟨first.value :: others.value, others.next, others.rest⟩) := by
  rw [block]
  unfold Parser.blockTail
  split
  · rfl
  · rfl
  · rename_i notEmpty notClosed
    split
    · exact absurd HEq.rfl (notEmpty _ rfl)
    · exact absurd HEq.rfl (notClosed _ _ _ rfl)
    · refine Reading.parsed_bind fun first => ?_
      refine (blockTail_done [first.value] first.rest first.next _).trans ?_
      change (block first.rest first.next).map _ = (block first.rest first.next >>= _)
      cases block first.rest first.next <;> rfl

/-- Declarations already read stand in front of the others. -/
private theorem program_done (done : List Stmt) (tokens : List Token) (next : RefId) :
    Parser.program done tokens next =
      (parse tokens next).map fun result => (done.reverse ++ result.1, result.2) := by
  unfold parse Parser.program
  split
  · simp [Except.map]
  · cases Parser.declaration tokens next with
    | error _ => rfl
    | ok first =>
        have := first.shorter
        dsimp only [bind, Except.bind]
        rw [program_done (first.value :: done), program_done [first.value]]
        cases parse first.rest first.next <;> simp [Except.map]
termination_by tokens.length

theorem parse_eq (tokens : List Token) (next : RefId) :
    parse tokens next = (
      match tokens with
      | [] => .ok ([], next)
      | tokens => do
        let first ← declaration tokens next
        let others ← parse first.rest first.next
        .ok (first.value :: others.1, others.2)) := by
  rw [parse]
  unfold Parser.program
  cases tokens with
  | nil => rfl
  | cons token rest =>
      dsimp only
      unfold declaration
      cases Parser.declaration (token :: rest) next with
      | error _ => rfl
      | ok first =>
          dsimp only [bind, Except.bind, Reading.parsed, Except.map, Read.parsed]
          rw [program_done [first.value]]
          cases parse first.rest first.next <;> rfl

end Rule

end ScopedScript

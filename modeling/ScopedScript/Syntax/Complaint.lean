import ScopedScript.Token
namespace ScopedScript

/-!
# What can be wrong with a sequence of tokens

A `Complaint` says what the grammar wanted, a `SyntaxError` adds the token at which it was wanted.  The
end of the text takes the place of a token when none is left.
-/

/-- What the grammar wanted. -/
inductive Complaint where
  | expression
  | groupClose
  | argumentsClose
  | tooManyArguments
  | assignmentTarget
  | expressionEnd
  | printEnd
  | returnEnd
  | variableName
  | declarationEnd
  | blockEnd
  | ifOpen
  | ifClose
  | whileOpen
  | whileClose
  | forOpen
  | forConditionEnd
  | forClose
  | functionName
  | parametersOpen
  | parameterName
  | tooManyParameters
  | parametersClose
  | functionBody
  deriving DecidableEq, Repr

namespace Complaint

/-- The wording of a complaint. -/
def message : Complaint → String
  | expression => "Expect expression."
  | groupClose => "Expect ')' after expression."
  | argumentsClose => "Expect ')' after arguments."
  | tooManyArguments => "Can't have more than 255 arguments."
  | assignmentTarget => "Invalid assignment target."
  | expressionEnd => "Expect ';' after expression."
  | printEnd => "Expect ';' after value."
  | returnEnd => "Expect ';' after return value."
  | variableName => "Expect variable name."
  | declarationEnd => "Expect ';' after variable declaration."
  | blockEnd => "Expect '\x7d' after block."
  | ifOpen => "Expect '(' after 'if'."
  | ifClose => "Expect ')' after if condition."
  | whileOpen => "Expect '(' after 'while'."
  | whileClose => "Expect ')' after condition."
  | forOpen => "Expect '(' after 'for'."
  | forConditionEnd => "Expect ';' after loop condition."
  | forClose => "Expect ')' after for clauses."
  | functionName => "Expect function name."
  | parametersOpen => "Expect '(' after function name."
  | parameterName => "Expect parameter name."
  | tooManyParameters => "Can't have more than 255 parameters."
  | parametersClose => "Expect ')' after parameters."
  | functionBody => "Expect '\x7b' before function body."

end Complaint

/-- A complaint and the token it is about, or none at the end of the text. -/
structure SyntaxError where
  complaint : Complaint
  found : Option Token
  deriving DecidableEq, Repr

namespace SyntaxError

/-- Where the error is, in words: the lexeme of its token, or the end. -/
def location (error : SyntaxError) : String :=
  match error.found with
  | some token => " at '" ++ token.kind.lexeme ++ "'"
  | none => " at end"

/-- The line of the error, in a text that ends on the given line. -/
def line (error : SyntaxError) (endLine : Nat) : Nat :=
  match error.found with
  | some token => token.line
  | none => endLine

end SyntaxError

end ScopedScript

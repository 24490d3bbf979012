import ScopedScript.Scope.Heap
import ScopedScript.Scope.Resolution
import ScopedScript.Syntax.Complaint
import ScopedScript.Token.Lexer
namespace ScopedScript

/-!
# What can go wrong, and how it is reported

A text is rejected for a lexical fault, a syntax error or a scope error before any of it runs.  A running
program fails with a `RuntimeError`.  All of them become a `Diagnostic`, which fixes the rendering and
the exit code.
-/

/-- Why a running program fails. -/
inductive RuntimeCause where
  | numberOperand
  | numberOperands
  | additionOperands
  | undefinedVariable (name : String)
  | notCallable
  | arity (expected actual : Nat)
  | stackOverflow
  | builtin (message : String)
  | output (reason : String)
  deriving DecidableEq, Repr

namespace RuntimeCause

/-- The wording of a cause. -/
def message : RuntimeCause → String
  | numberOperand => "Operand must be a number."
  | numberOperands => "Operands must be numbers."
  | additionOperands => "Operands must be two numbers or two strings."
  | undefinedVariable name => "Undefined variable '" ++ name ++ "'."
  | notCallable => "Can only call functions."
  | arity expected actual =>
    "Expected " ++ toString expected ++ " arguments but got " ++ toString actual ++ "."
  | stackOverflow => "Stack overflow."
  | builtin message => message
  | output reason => "Failed to write output: " ++ reason

end RuntimeCause

/-- A cause and the line it is blamed on. -/
structure RuntimeError where
  cause : RuntimeCause
  line : Nat
  deriving DecidableEq, Repr

/-- How a run can go wrong.  Defects are kept apart, since they would be faults of the scope analysis
and not of the program. -/
inductive Failure where
  | runtime (error : RuntimeError)
  | defect (defect : ScopeDefect)
  deriving DecidableEq, Repr

/-- Why a text is rejected before it runs. -/
inductive StaticError where
  | lexical (fault : LexicalFault) (line : Nat)
  | syntactic (error : SyntaxError) (endLine : Nat)
  | scope (error : ScopeError)
  deriving DecidableEq, Repr

/-- The kinds of reports. -/
inductive DiagnosticKind where
  | lexical | syntactic | scope
  | type | undefinedVariable | notCallable | arity | stackOverflow | builtin | output
  | defect
  | file | encoding
  deriving DecidableEq, Repr

namespace DiagnosticKind

/-- Whether a kind is found before anything runs. -/
def isStatic : DiagnosticKind → Bool
  | lexical | syntactic | scope => true
  | _ => false

/-- The exit code of a program that ends with a report of this kind. -/
def exitCode : DiagnosticKind → Nat
  | lexical | syntactic | scope => 65
  | file | encoding => 74
  | defect => 101
  | _ => 70

end DiagnosticKind

/-- A report: what kind, where, and what it says. -/
structure Diagnostic where
  kind : DiagnosticKind
  line? : Option Nat := none
  /-- What stands between the word `Error` and the message of a rejected text. -/
  location : String := ""
  message : String
  deriving DecidableEq, Repr

namespace Diagnostic

/-- The location of a token or a name. -/
def atLexeme (lexeme : String) : String := " at '" ++ lexeme ++ "'"

/-- A line in brackets. -/
def lineMark (line : Nat) : String := "[Line " ++ toString line ++ "]"

/-- The complete report.  Rejections begin with their line and failures of a run end with theirs. -/
def render (report : Diagnostic) : String :=
  match report.line? with
  | none => report.message
  | some line =>
    if report.kind.isStatic then
      lineMark line ++ " Error" ++ report.location ++ ": " ++ report.message
    else
      report.message ++ "\n" ++ lineMark line

/-- A report about characters. -/
def lexical (line : Nat) (message : String) : Diagnostic :=
  { kind := .lexical, line? := some line, message }

/-- A report about tokens. -/
def syntactic (line : Nat) (location message : String) : Diagnostic :=
  { kind := .syntactic, line? := some line, location, message }

/-- A report about names. -/
def scope (line : Nat) (name message : String) : Diagnostic :=
  { kind := .scope, line? := some line, location := atLexeme name, message }

/-- A report about a run. -/
def runtime (kind : DiagnosticKind) (line : Nat) (message : String) : Diagnostic :=
  { kind, line? := some line, message }

end Diagnostic

namespace RuntimeCause

/-- The kind of report that a cause gives rise to. -/
def kind : RuntimeCause → DiagnosticKind
  | numberOperand | numberOperands | additionOperands => .type
  | undefinedVariable _ => .undefinedVariable
  | notCallable => .notCallable
  | arity _ _ => .arity
  | stackOverflow => .stackOverflow
  | builtin _ => .builtin
  | output _ => .output

end RuntimeCause

namespace RuntimeError

/-- The report of a runtime error. -/
def diagnostic (error : RuntimeError) : Diagnostic :=
  .runtime error.cause.kind error.line error.cause.message

end RuntimeError

namespace Failure

/-- The report of a failed run. -/
def diagnostic : Failure → Diagnostic
  | runtime error => error.diagnostic
  | defect d => { kind := .defect, message := d.message }

end Failure

namespace StaticError

/-- The report of a rejected text. -/
def diagnostic : StaticError → Diagnostic
  | lexical fault line => .lexical line fault.message
  | syntactic error endLine => .syntactic (error.line endLine) error.location error.complaint.message
  | scope error => .scope error.culprit.line error.culprit.name error.fault.message

end StaticError

end ScopedScript

import ScopedScript.Number.Format
import ScopedScript.Scope.Heap
import ScopedScript.Syntax
namespace ScopedScript

/-!
# Values

Numbers, text, truth values, nil and functions.  A function is either a closure, which remembers the
scope in which its declaration ran, or a builtin of the host.  Every function value carries an identity,
and two function values are equal exactly when their identities are.
-/

/-- A declared function together with the scope that was current at its declaration. -/
structure Closure where
  name : String
  parameters : List Identifier
  body : List Stmt
  scope : ScopeId

/-- What the clock of a host shows when it is read: the seconds since the beginning of 1970, or why it shows none. -/
abbrev ClockReading := Except String Float

/-- What a builtin sees of an argument. -/
inductive View where
  | constant (value : Constant)
  | function (identity : Nat) (rendering : String) (arity : Nat)

/-- What a builtin gives back: a value of its own, or one of its arguments by its place. -/
inductive Reply where
  | constant (value : Constant)
  | argument (place : Nat)

/-- A function that a host offers.  It sees the clock and its arguments and no state of the program, and it may
fail with a message. -/
structure Builtin where
  name : String
  arity : Nat
  respond : ClockReading → List View → Except String Reply

/-- The builtin that reads the clock. -/
def Builtin.clock : Builtin where
  name := "clock"
  arity := 0
  respond reading _ :=
    match reading with
    | .ok now => .ok (.constant (.number now))
    | .error reason => .error ("Clock error: " ++ reason)

/-- What can be called. -/
inductive Callable where
  | closure (closure : Closure)
  | builtin (builtin : Builtin)

namespace Callable

/-- How many arguments a call must have. -/
def arity : Callable → Nat
  | closure c => c.parameters.length
  | builtin b => b.arity

/-- The written form of a function value. -/
def render : Callable → String
  | closure c => "<fn " ++ c.name ++ ">"
  | builtin b => "<native fn " ++ b.name ++ ">"

/-- A closer description of a closure. -/
def describe? : Callable → Option String
  | closure c =>
    some ("Function \x7b name: \"" ++ c.name ++ "\", arity: " ++ toString c.parameters.length ++
      ", .. \x7d")
  | builtin _ => none

end Callable

/-- What expressions evaluate to. -/
inductive Value where
  | number (value : Float)
  | text (value : String)
  | truth (value : Bool)
  | nil
  | function (identity : Nat) (callable : Callable)

namespace Value

/-- The value of a constant. -/
def ofConstant : Constant → Value
  | .number value => number value
  | .text value => text value
  | .truth value => truth value
  | .nil => nil

/-- Only `nil` and `false` count as false in a condition. -/
def isTruthy : Value → Bool
  | nil => false
  | truth value => value
  | _ => true

/-- The name of a value's type. -/
def typeName : Value → String
  | number _ => "number"
  | text _ => "string"
  | truth _ => "boolean"
  | nil => "nil"
  | function _ _ => "function"

/-- The written form of a value. -/
def render : Value → String
  | number value => NumberFormat.printed value
  | text value => value
  | truth true => "true"
  | truth false => "false"
  | nil => "nil"
  | function _ callable => callable.render

/-- Equality in the language: values of different types differ, numbers compare as doubles (so NaN
differs from itself and the two zeros are equal), and functions compare by identity. -/
def isEqual : Value → Value → Bool
  | number left, number right => left == right
  | text left, text right => left == right
  | truth left, truth right => left == right
  | nil, nil => true
  | function left _, function right _ => left == right
  | _, _ => false

end Value

/-- What a builtin sees of a value. -/
def Value.view : Value → View
  | .number value => .constant (.number value)
  | .text value => .constant (.text value)
  | .truth value => .constant (.truth value)
  | .nil => .constant .nil
  | .function identity callable => .function identity callable.render callable.arity

/-- The value of a reply to arguments. -/
def Reply.value (arguments : List Value) : Reply → Value
  | constant value => .ofConstant value
  | argument place => arguments.getD place .nil

/-- The result of a builtin, or the text of its failure. -/
def Builtin.apply (builtin : Builtin) (reading : ClockReading) (arguments : List Value) : Except String Value :=
  match builtin.respond reading (arguments.map Value.view) with
  | .ok reply => .ok (reply.value arguments)
  | .error message => .error message

end ScopedScript

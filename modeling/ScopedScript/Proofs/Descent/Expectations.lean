import ScopedScript.Proofs.Descent.Procedures
import ScopedScript.Proofs.Descent.Levels
import ScopedScript.Proofs.Descent.Lists
import ScopedScript.Proofs.Grammar.ProgramSoundness
namespace ScopedScript

/-!
# What calls are expected to answer

Every procedure has an answer of the grammar to meet: a rule meets itself, and a turn of a loop the rest of the
list, with what the turns before it have read in front.

Where a procedure calls another, either tokens were used up in between, or the called one has a lower rank.
So a body may rely on calls with fewer tokens left, or with as many and a lower rank, and on no others.
-/

namespace Descent

/-- Without using up a token, a rule calls only rules of a lower rank. -/
def Label.rank : Label → Nat
  | programLoop | blockLoop | argumentLoop => 12
  | declaration => 11
  | statement => 10
  | expression => 9
  | assignment => 8
  | level l => 8 - l.number
  | unary => 1
  | parameterLoop | printLoop | levelLoop _ | callLoop => 0

theorem Label.rank_lt (label : Label) : label.rank < 13 := by
  cases label with
  | level l => exact Nat.lt_of_le_of_lt (Nat.sub_le 8 l.number) (by decide)
  | levelLoop _ => exact Nat.succ_pos 12
  | _ => decide

namespace Procedure

/-- The loop of a level begins behind an operand, so no operator of a level above stands there. -/
def Ready (rest : List Token) : Procedure → Prop
  | levelLoop l _ => Stops (l.number + 1) rest
  | _ => True

/-- The answer of the grammar that a procedure has to meet. -/
def expected (rest : List Token) (next : RefId) :
    (procedure : Procedure) → Except SyntaxError (Parsed procedure.Result)
  | programLoop done => Rule.programFrom done rest next
  | declaration => Rule.declaration rest next
  | statement => Rule.statement rest next
  | parameterLoop done => Rule.parametersFrom done rest next
  | blockLoop done => Rule.declarationsFrom done rest next
  | printLoop done => Rule.valuesFrom done rest next
  | expression => Rule.expression rest next
  | assignment => Rule.expression rest next
  | level l => Rule.chain l.number rest next
  | levelLoop l left => Rule.chainTail l.number left rest next
  | unary => Rule.unary rest next
  | callLoop callee => Rule.callTail callee rest next
  | argumentLoop done => Rule.argumentsFrom done rest next

end Procedure

/-- Calls meet their answers as long as fewer tokens than these are left, or as many and the rank is lower. -/
def CallsMeet (tokens : List Token) (active : List Entry) (call : Calls) (left rank : Nat) : Prop :=
  ∀ (procedure : Procedure) (place : Place), procedure.Ready place.rest →
    place.rest.length < left ∨ place.rest.length = left ∧ procedure.label.rank < rank →
    Meets tokens active (call procedure) place (procedure.expected place.rest place.next)

/-- Expressions are read as long as no more tokens than these are left. -/
def ExpressionsMeet (tokens : List Token) (active : List Entry) (call : Calls) (left : Nat) : Prop :=
  ∀ place : Place, place.rest.length ≤ left →
    Meets tokens active (call .expression) place (Rule.expression place.rest place.next)

namespace CallsMeet

variable {tokens : List Token} {active : List Entry} {call : Calls} {left rank : Nat} {used rest : List Token}
  {next : RefId}

/-- Any call may be made once a token was used up. -/
theorem behind (calls : CallsMeet tokens active call left rank) (procedure : Procedure)
    (ready : procedure.Ready rest) (fewer : rest.length < left) :
    Meets tokens active (call procedure) ⟨used, rest, next⟩ (procedure.expected rest next) :=
  calls procedure ⟨used, rest, next⟩ ready (.inl fewer)

/-- A call of a lower rank may be made before that. -/
theorem deeper (calls : CallsMeet tokens active call rest.length rank) (procedure : Procedure)
    (ready : procedure.Ready rest) (lower : procedure.label.rank < rank) :
    Meets tokens active (call procedure) ⟨used, rest, next⟩ (procedure.expected rest next) :=
  calls procedure ⟨used, rest, next⟩ ready (.inr ⟨rfl, lower⟩)

theorem expressions_behind (calls : CallsMeet tokens active call left rank) (fewer : rest.length < left) :
    ExpressionsMeet tokens active call rest.length :=
  fun place within => calls .expression place trivial (.inl (Nat.lt_of_le_of_lt within fewer))

theorem expressions_deeper (calls : CallsMeet tokens active call left rank) (lower : Label.expression.rank < rank) :
    ExpressionsMeet tokens active call left := by
  intro place within
  refine calls .expression place trivial ?_
  rcases Nat.lt_or_eq_of_le within with fewer | same
  · exact .inl fewer
  · exact .inr ⟨same, lower⟩

end CallsMeet

theorem ExpressionsMeet.mono {tokens : List Token} {active : List Entry} {call : Calls} {left fewer : Nat}
    (expressions : ExpressionsMeet tokens active call left) (within : fewer ≤ left) :
    ExpressionsMeet tokens active call fewer :=
  fun place short => expressions place (Nat.le_trans short within)

end Descent

end ScopedScript

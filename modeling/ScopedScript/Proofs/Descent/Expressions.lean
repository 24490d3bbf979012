import ScopedScript.Proofs.Descent.Expectations
namespace ScopedScript

/-!
# The procedures for expressions meet the grammar
-/

namespace Descent

section

variable {tokens : List Token} {active : List Entry} {call : Calls} {rank : Nat} {used rest : List Token}
  {token : Token} {next : RefId}

/-! ## Levels of operators -/

/-- An operand of a level is what the level above reads. -/
theorem meets_operand {level : Level} {left : Nat} (calls : CallsMeet tokens active call left rank)
    (allowed : rest.length < left ∨ rest.length = left ∧ 7 - level.number < rank) :
    Meets tokens active (operand call level) ⟨used, rest, next⟩ (Rule.chain (level.number + 1) rest next) := by
  cases level with
  | or => exact calls (.level .and) _ trivial allowed
  | and => exact calls (.level .equality) _ trivial allowed
  | equality => exact calls (.level .comparison) _ trivial allowed
  | comparison => exact calls (.level .term) _ trivial allowed
  | term => exact calls (.level .factor) _ trivial allowed
  | factor =>
      have reads := Rule.chain_unaryLevel rest next
      exact reads ▸ calls .unary _ trivial allowed

theorem meets_level {level : Level} (calls : CallsMeet tokens active call rest.length (8 - level.number)) :
    Meets tokens active (Descent.level call level) ⟨used, rest, next⟩ (Rule.chain level.number rest next) := by
  have lower : 7 - level.number < 8 - level.number := by
    have := level.number_lt
    unfold Expr.unaryLevel at this
    omega
  rw [Rule.chain_succ]
  refine (meets_operand calls (.inr ⟨rfl, lower⟩)).bind fun out used answered => ?_
  exact calls.behind (.levelLoop level out.value) (Rule.chain_sound level.number_lt answered).2
    (Reading.length_lt answered)

/-- A turn of a loop reads one operator of its level.  There is none of a level above: one like that would belong
to the operand before it. -/
theorem meets_levelLoop {level : Level} {left : Expr} (ready : Stops (level.number + 1) rest)
    (calls : CallsMeet tokens active call rest.length rank) :
    Meets tokens active (levelLoop call level left) ⟨used, rest, next⟩
      (Rule.chainTail level.number left rest next) := by
  unfold levelLoop
  refine meets_acceptOperator (fun token behind connective follows operator same => ?_) fun others => ?_
  · subst follows
    have turn : Meets tokens active (operand call level >>= fun right =>
          call (.levelLoop level (connective.apply token.line left right)))
        ⟨token :: used, behind, next⟩ (Rule.chainTail level.number left (token :: behind) next) := by
      rw [Rule.chainTail_eq]
      dsimp only
      rw [operator]
      dsimp only
      rw [if_neg (Nat.not_lt.mpr (Nat.le_of_eq same.symm)), same]
      refine (meets_operand calls (.inl (Nat.lt_succ_self _))).bind fun right used answered => ?_
      refine calls.behind (.levelLoop level _) (Rule.chain_sound level.number_lt answered).2 ?_
      exact Nat.lt_succ_of_lt (Reading.length_lt answered)
    cases connective with
    | logical op => exact turn
    | binary op => exact passes_previous.meets_bind turn
  · have stays : Rule.chainTail level.number left rest next = .ok ⟨left, next, rest⟩ := by
      rw [Rule.chainTail_eq]
      split
      · rfl
      · rename_i token behind
        split
        · rfl
        · rename_i connective operator
          have atMost := ready token behind connective rfl operator
          have differs := others token behind connective rfl operator
          exact if_pos (Nat.lt_of_le_of_ne (Nat.le_of_lt_succ atMost) differs)
    rw [stays]
    exact meets_pure left

/-! ## Unary operators, calls and primaries -/

theorem meets_group (expressions : ExpressionsMeet tokens active call rest.length) :
    Meets tokens active (group call) ⟨used, rest, next⟩ (do
      let inner ← Rule.expression rest next
      let close ← Rule.expect .rightParen .groupClose inner.rest inner.next
      .ok ⟨.group inner.value, close.next, close.rest⟩) :=
  (expressions ⟨used, rest, next⟩ (Nat.le_refl _)).bind fun _ _ _ =>
    meets_consume fun _ _ _ => meets_pure _

/-- What is no constant is a name, a group, or nothing that an expression begins with. -/
theorem meets_nameOrGroup (calls : CallsMeet tokens active call rest.length rank)
    (noConstant : ∀ token behind, rest = token :: behind → Constant.ofKind? token.kind = none) :
    Meets tokens active (nameOrGroup call) ⟨used, rest, next⟩ (Rule.primary rest next) := by
  unfold nameOrGroup
  refine meets_accept (fun token behind follows fits => ?_) fun notName =>
    meets_acceptSymbol (fun line behind follows => ?_) fun notGroup => ?_
  · rcases token with ⟨kind, line⟩
    rcases Wanted.exists_identifier fits with ⟨letters, rfl⟩
    subst follows
    rw [Rule.primary_eq]
    exact passes_previous.meets_bind (passes_fresh.meets_bind (meets_pure _))
  · subst follows
    rw [Rule.primary_eq]
    exact meets_group (calls.expressions_behind (Nat.lt_succ_self _))
  · have refuses : Rule.primary rest next = Parser.refuse .expression rest := by
      rw [Rule.primary_eq]
      split
      · rfl
      · cases notName
      · cases notGroup
      · rw [noConstant _ _ rfl]
    rw [refuses]
    exact meets_refuse _

theorem constantOf_literal {kind : TokenKind} {literal : TokenLiteral} (found : kind.literal? = some literal) :
    Constant.ofKind? kind = some (constantOf literal) := by
  cases kind with
  | string _ => cases found; rfl
  | number _ => cases found; rfl
  | _ => cases found

/-- A constant without a literal is one of three words. -/
theorem ofKind?_of_no_literal {token : Token} {behind : List Token}
    (notFalse : (Wanted.keyword .falseWord).comesNext (token :: behind) = false)
    (notTrue : (Wanted.keyword .trueWord).comesNext (token :: behind) = false)
    (notNil : (Wanted.keyword .nilWord).comesNext (token :: behind) = false)
    (none : token.kind.literal? = none) : Constant.ofKind? token.kind = .none := by
  rcases token with ⟨kind, line⟩
  cases kind with
  | keyword k =>
      cases k with
      | falseWord => cases notFalse
      | trueWord => cases notTrue
      | nilWord => cases notNil
      | _ => rfl
  | symbol _ => rfl
  | identifier _ => rfl
  | string _ => cases none
  | number _ => cases none

theorem primary_constant {kind : TokenKind} {constant : Constant} (found : Constant.ofKind? kind = some constant)
    (line : Nat) (behind : List Token) (next : RefId) :
    Rule.primary (⟨kind, line⟩ :: behind) next = .ok ⟨.constant constant, next, behind⟩ := by
  rw [Rule.primary_eq]
  cases kind with
  | symbol _ => cases found
  | identifier _ => cases found
  | _ =>
      dsimp only
      rw [found]

theorem meets_primary (calls : CallsMeet tokens active call rest.length rank) :
    Meets tokens active (primary call) ⟨used, rest, next⟩ (Rule.primary rest next) := by
  have word : ∀ {k : Keyword} {constant : Constant}, Constant.ofKind? (.keyword k) = some constant →
      ∀ line behind, rest = ⟨.keyword k, line⟩ :: behind →
        Meets tokens active (pure (.constant constant)) ⟨⟨.keyword k, line⟩ :: used, behind, next⟩
          (Rule.primary rest next) := by
    rintro k constant found line behind rfl
    rw [primary_constant found]
    exact meets_pure _
  unfold primary
  refine meets_acceptKeyword (word rfl) fun notFalse => meets_acceptKeyword (word rfl) fun notTrue =>
    meets_acceptKeyword (word rfl) fun notNil => passes_peek.meets_bind ?_
  rcases rest with _ | ⟨⟨kind, line⟩, behind⟩
  · exact meets_nameOrGroup calls fun _ _ impossible => absurd impossible (List.cons_ne_nil _ _).symm
  · dsimp only [List.head?_cons, Option.bind_some]
    split
    · rename_i literal found
      rw [primary_constant (constantOf_literal found)]
      exact passes_advance.meets_bind (meets_pure _)
    · rename_i none
      refine meets_nameOrGroup calls ?_
      rintro token behind ⟨rfl, rfl⟩
      exact ofKind?_of_no_literal notFalse notTrue notNil none

theorem meets_applied (op : UnaryOp) (calls : CallsMeet tokens active call (rest.length + 1) rank) :
    Meets tokens active (applied call op) ⟨token :: used, rest, next⟩ (do
      let operand ← Rule.unary rest next
      .ok ⟨.unary op token.line operand.value, operand.next, operand.rest⟩) :=
  passes_previous.meets_bind ((calls.behind .unary trivial (Nat.lt_succ_self _)).make _)

/-- Without a unary operator there is a callee. -/
theorem unary_of_misses (notBang : (Wanted.symbol .bang).comesNext rest = false)
    (notMinus : (Wanted.symbol .minus).comesNext rest = false) (next : RefId) :
    Rule.unary rest next = (do
      let callee ← Rule.primary rest next
      Rule.callTail callee.value callee.rest callee.next) := by
  rw [Rule.unary_eq]
  split
  · rw [Rule.primary_eq]
    rfl
  · rename_i token behind
    have none : UnaryOp.ofKind? token.kind = none := by
      rcases token with ⟨kind, line⟩
      cases kind with
      | symbol s =>
          cases s with
          | bang => cases notBang
          | minus => cases notMinus
          | _ => rfl
      | _ => rfl
    rw [none]

theorem meets_unary (calls : CallsMeet tokens active call rest.length rank) :
    Meets tokens active (Descent.unary call) ⟨used, rest, next⟩ (Rule.unary rest next) := by
  unfold Descent.unary
  refine meets_acceptSymbol (fun line behind follows => ?_) fun notBang =>
    meets_acceptSymbol (fun line behind follows => ?_) fun notMinus => ?_
  · subst follows
    rw [Rule.unary_eq]
    exact meets_applied .not calls
  · subst follows
    rw [Rule.unary_eq]
    exact meets_applied .negate calls
  · rw [unary_of_misses notBang notMinus]
    exact (meets_primary calls).bind fun callee used answered =>
      calls.behind (.callLoop callee.value) trivial (Reading.length_lt answered)

/-- A turn over the arguments of a call.  The limit is looked at before the argument is read. -/
theorem meets_argumentLoop {done : List Expr} (calls : CallsMeet tokens active call rest.length Label.argumentLoop.rank) :
    Meets tokens active (argumentLoop call done) ⟨used, rest, next⟩ (Rule.argumentsFrom done rest next) := by
  unfold argumentLoop
  rw [Rule.argumentsFrom_eq]
  split
  · exact meets_refuse _
  · refine (calls.deeper .expression trivial (by decide)).bind fun argument used answered => ?_
    have shorter := Reading.length_lt answered
    rcases argument with ⟨value, next', behind⟩
    refine meets_separator (fun line others follows => ?_) (fun line others follows => ?_)
      fun notComma notClosed => ?_
    · cases follows
      exact calls.behind (.argumentLoop _) trivial (Nat.lt_of_succ_lt shorter)
    · cases follows
      exact meets_pure _
    · dsimp only
      split
      · cases notComma
      · cases notClosed
      · rfl

theorem meets_arguments (calls : CallsMeet tokens active call (rest.length + 1) rank) :
    Meets tokens active (arguments call) ⟨used, rest, next⟩ (Rule.arguments rest next) := by
  unfold arguments
  refine meets_checkSymbol (fun line behind follows => ?_) fun notClosed => ?_
  · subst follows
    rw [Rule.arguments_eq]
    exact (passes_consume _ (Wanted.fits_symbol _)).meets_bind (meets_pure _)
  · have list : Rule.arguments rest next = Rule.argumentsFrom [] rest next := by
      rw [Rule.arguments_eq]
      split
      · cases notClosed
      · exact (Rule.argumentsFrom_nil rest next).symm
    rw [list]
    exact calls.behind (.argumentLoop []) trivial (Nat.lt_succ_self _)

/-- A turn over the argument lists behind a callee. -/
theorem meets_callLoop {callee : Expr} (calls : CallsMeet tokens active call rest.length rank) :
    Meets tokens active (callLoop call callee) ⟨used, rest, next⟩ (Rule.callTail callee rest next) := by
  unfold callLoop
  rw [Rule.callTail_eq]
  refine meets_acceptSymbol (fun line behind follows => ?_) fun notCalled => ?_
  · subst follows
    refine (meets_arguments calls).bind fun list used answered => ?_
    exact calls.behind (.callLoop _) trivial (Nat.lt_succ_of_lt (Reading.length_lt answered))
  · split
    · cases notCalled
    · exact meets_pure _

/-! ## Assignments -/

/-- What stands before the sign is read as an expression first, and refused afterwards if it is no name. -/
theorem meets_assignment (calls : CallsMeet tokens active call rest.length Label.assignment.rank) :
    Meets tokens active (assignment call) ⟨used, rest, next⟩ (Rule.expression rest next) := by
  unfold assignment
  rw [Rule.expression_eq]
  refine (calls.deeper (.level .or) trivial (by decide)).bind fun target used answered => ?_
  have shorter := Reading.length_lt answered
  rcases target with ⟨target, next', behind⟩
  refine meets_acceptSymbol (fun line others follows => ?_) fun notAssigned => ?_
  · cases follows
    refine passes_previous.meets_bind ?_
    refine (calls.behind .assignment trivial (Nat.lt_of_succ_lt shorter)).bind fun value used answered => ?_
    cases target with
    | «variable» _ name => exact passes_fresh.meets_bind (meets_pure _)
    | _ => exact meets_refuseAt _ _
  · dsimp only
    split
    · cases notAssigned
    · exact meets_pure _

end

end Descent

end ScopedScript

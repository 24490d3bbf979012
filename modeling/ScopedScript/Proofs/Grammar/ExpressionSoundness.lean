import ScopedScript.Proofs.Grammar.ExpressionRules
import ScopedScript.Proofs.Grammar.Operators
namespace ScopedScript

/-!
# Expressions that the parser accepts

Whatever a rule for expressions returns is well formed, stands at least on the level that the rule asks
for, and spells the tokens that were used up.

The levels are where the argument lies.  A tail reads operators of its level or above, each with a right
operand above its own, and the left operand it starts from must not be below the next operator.  That
holds at first because the operand is unary, and afterwards because a right operand has just stopped:
`Stops` says that no operator of the given level or above comes next.
-/

open Spelling

/-- What was read from a place is an expression of the grammar, stands at least on the given level, and
spells the tokens up to where it ends. -/
structure ExprRead (level : Nat) (tokens : List Token) (next : RefId) (out : Parsed Expr) : Prop where
  passage : Passage (ofExpr out.value) out.value.refs tokens next out.rest out.next
  wellFormed : out.value.WellFormed
  high : level ≤ out.value.level

/-- What was read from a place are arguments, as many as there was room for, and the line of the
parenthesis behind them. -/
structure ArgumentsRead (room : Nat) (tokens : List Token) (next : RefId)
    (out : Parsed (List Expr × Nat)) : Prop where
  passage : Passage (ofExprs out.value.1 ++ [.symbolAt .rightParen out.value.2])
    (Expr.refsOf out.value.1) tokens next out.rest out.next
  wellFormed : Expr.AllWellFormed out.value.1
  few : out.value.1.length ≤ room

namespace ExprRead

variable {level : Nat} {tokens : List Token} {next : RefId} {out : Parsed Expr}

theorem weaken {lower : Nat} (fits : lower ≤ level) (read : ExprRead level tokens next out) :
    ExprRead lower tokens next out :=
  ⟨read.passage, read.wellFormed, Nat.le_trans fits read.high⟩

/-- Nothing in the tables of operators is above the unary operators. -/
theorem stops_of_unary (read : ExprRead Expr.unaryLevel tokens next out) (rest : List Token) :
    Stops (out.value.level + 1) rest := by
  intro token behind connective _ _
  exact Nat.lt_succ_of_lt (Nat.lt_of_lt_of_le connective.level_bounds.2 read.high)

/-- An operator with a right operand above it extends what was read, when the left operand is not below
the operator. -/
theorem apply {connective : Connective} {line : Nat} {behind : List Token} {right : Parsed Expr}
    (read : ExprRead level tokens next out) (follows : out.rest = ⟨connective.kind, line⟩ :: behind)
    (left : connective.level ≤ out.value.level) (fits : level ≤ connective.level)
    (operand : ExprRead (connective.level + 1) behind out.next right) :
    ExprRead level tokens next
      ⟨connective.apply line out.value right.value, right.next, right.rest⟩ := by
  have before := read.passage
  rw [follows] at before
  refine ⟨?_, ?_, ?_⟩
  · rw [connective.ofExpr_apply, connective.refs_apply]
    exact before.append (operand.passage.cons (connective.fits_mark line))
  · exact (connective.wellFormed_apply line _ _).mpr
      ⟨read.wellFormed, operand.wellFormed, left, operand.high⟩
  · rw [connective.level_apply]
    exact fits

/-- Arguments in parentheses extend a callee. -/
theorem call {line : Nat} {behind : List Token} {arguments : Parsed (List Expr × Nat)}
    (read : ExprRead Expr.callLevel tokens next out)
    (follows : out.rest = ⟨.symbol .leftParen, line⟩ :: behind)
    (list : ArgumentsRead maxArity behind out.next arguments) :
    ExprRead Expr.callLevel tokens next
      ⟨.call out.value arguments.value.2 arguments.value.1, arguments.next, arguments.rest⟩ := by
  have before := read.passage
  rw [follows] at before
  refine ⟨?_, ⟨read.wellFormed, read.high, list.few, list.wellFormed⟩, Nat.le_refl _⟩
  exact before.append (list.passage.cons (Mark.fits_symbol .leftParen line))

end ExprRead

/-- A comma goes before more expressions exactly as it goes between the first and the second. -/
theorem Spelling.ofMoreExprs_of_ne_nil {es : List Expr} (some : es ≠ []) :
    ofMoreExprs es = .symbol .comma :: ofExprs es := by
  cases es with
  | nil => exact absurd rfl some
  | cons first rest => rfl

namespace Rule

/-- A single symbol was expected and read. -/
theorem expect_ok {wanted : Symbol} {complaint : Complaint} {tokens : List Token} {next : RefId}
    {out : Parsed Nat} (read : expect wanted complaint tokens next = .ok out) :
    tokens = ⟨.symbol wanted, out.value⟩ :: out.rest ∧ out.next = next := by
  rw [expect_eq] at read
  split at read
  · split at read
    · rename_i same
      subst same
      cases read
      exact ⟨rfl, rfl⟩
    · cases read
  · cases read

/-- A single name was expected and read. -/
theorem identifier_ok {complaint : Complaint} {tokens : List Token} {next : RefId}
    {out : Parsed Identifier} (read : identifier complaint tokens next = .ok out) :
    tokens = ⟨.identifier out.value.name, out.value.line⟩ :: out.rest ∧ out.next = next := by
  rw [identifier_eq] at read
  split at read
  · cases read
    exact ⟨rfl, rfl⟩
  · cases read

mutual

/-- Expressions are sound. -/
theorem expression_sound {tokens : List Token} {next : RefId} {out : Parsed Expr}
    (read : expression tokens next = .ok out) : ExprRead 0 tokens next out := by
  rw [expression_eq] at read
  rcases bind_eq_ok.mp read with ⟨target, targetRead, rest⟩
  have targetShorter : target.rest.length < tokens.length := Reading.length_lt targetRead
  have targetSound := (chain_sound (by decide) targetRead).1
  rcases target with ⟨value, middle, follows⟩
  dsimp only at rest targetShorter
  split at rest
  · rename_i line behind
    rcases bind_eq_ok.mp rest with ⟨source, sourceRead, made⟩
    have sourceSound := expression_sound sourceRead
    split at made
    · rename_i ref name
      cases made
      -- The identity of the variable read first is given up.
      have named : Passage [.name name] [] tokens next (⟨.symbol .equal, line⟩ :: behind) middle :=
        ⟨targetSound.passage.spelled, targetSound.passage.rising.le⟩
      refine ⟨?_, sourceSound.wellFormed, Nat.zero_le _⟩
      exact named.append (sourceSound.passage.refer.cons (Mark.fits_symbol .equal line))
    · cases made
  · cases rest
    exact targetSound.weaken (Nat.zero_le 1)
termination_by tokens.length * 6 + 3
decreasing_by
  · omega
  · simp only [List.length_cons] at targetShorter; omega

/-- Chains are sound, and stop where no operator of their level follows. -/
theorem chain_sound {level : Nat} {tokens : List Token} {next : RefId} {out : Parsed Expr}
    (low : level ≤ Expr.unaryLevel) (read : chain level tokens next = .ok out) :
    ExprRead level tokens next out ∧ Stops level out.rest := by
  rw [chain_eq] at read
  rcases bind_eq_ok.mp read with ⟨first, firstRead, tail⟩
  have firstShorter : first.rest.length < tokens.length := Reading.length_lt firstRead
  have firstSound := unary_sound firstRead
  exact chainTail_sound (firstSound.weaken low) (firstSound.stops_of_unary _) tail
termination_by tokens.length * 6 + 2

/-- Tails of chains extend a left operand that is not below the operator behind it. -/
theorem chainTail_sound {level : Nat} {start : List Token} {begin : RefId} {left : Expr}
    {tokens : List Token} {next : RefId} {out : Parsed Expr}
    (leftRead : ExprRead level start begin ⟨left, next, tokens⟩)
    (stops : Stops (left.level + 1) tokens) (read : chainTail level left tokens next = .ok out) :
    ExprRead level start begin out ∧ Stops level out.rest := by
  rw [chainTail_eq] at read
  split at read
  · cases read
    exact ⟨leftRead, nofun⟩
  · rename_i token rest
    split at read
    · rename_i noOperator
      cases read
      refine ⟨leftRead, ?_⟩
      intro found behind connective same operator
      cases same
      exact nomatch noOperator.symm.trans operator
    · rename_i connective operator
      split at read
      · rename_i tooLow
        cases read
        refine ⟨leftRead, ?_⟩
        intro found behind other same otherOperator
        cases same
        cases operator.symm.trans otherOperator
        exact tooLow
      · rename_i highEnough
        rcases bind_eq_ok.mp read with ⟨right, rightRead, tail⟩
        have rightShorter : right.rest.length < rest.length := Reading.length_lt rightRead
        have rightSound := chain_sound connective.level_bounds.2 rightRead
        rcases token with ⟨kind, line⟩
        cases Connective.ofKind?_eq_some_iff.mp operator
        have leftHigh : connective.level ≤ left.level :=
          Nat.le_of_lt_succ (stops _ _ _ rfl operator)
        have extended := leftRead.apply rfl leftHigh (Nat.le_of_not_lt highEnough) rightSound.1
        refine chainTail_sound extended ?_ tail
        rw [Connective.level_apply]
        exact rightSound.2
termination_by tokens.length * 6
decreasing_by all_goals subst_vars; simp only [List.length_cons] at *; omega

/-- Unary operators are sound. -/
theorem unary_sound {tokens : List Token} {next : RefId} {out : Parsed Expr}
    (read : unary tokens next = .ok out) : ExprRead Expr.unaryLevel tokens next out := by
  rw [unary_eq] at read
  split at read
  · cases read
  · rename_i token rest
    split at read
    · rename_i op operator
      rcases bind_eq_ok.mp read with ⟨operand, operandRead, made⟩
      have operandSound := unary_sound operandRead
      cases made
      rcases token with ⟨kind, line⟩
      cases UnaryOp.ofKind?_eq_some_iff.mp operator
      exact ⟨operandSound.passage.cons (Mark.fits_symbolAt op.symbol line),
        ⟨operandSound.wellFormed, operandSound.high⟩, Nat.le_refl _⟩
    · rcases bind_eq_ok.mp read with ⟨callee, calleeRead, tail⟩
      have calleeShorter : callee.rest.length < (token :: rest).length := Reading.length_lt calleeRead
      have calleeSound := (primary_sound calleeRead).weaken (show Expr.callLevel ≤ Expr.primaryLevel by decide)
      exact (callTail_sound calleeSound tail).weaken (by decide)
termination_by tokens.length * 6 + 1
decreasing_by all_goals subst_vars; simp only [List.length_cons] at *; omega

/-- Argument lists extend a callee. -/
theorem callTail_sound {start : List Token} {begin : RefId} {callee : Expr} {tokens : List Token}
    {next : RefId} {out : Parsed Expr}
    (calleeRead : ExprRead Expr.callLevel start begin ⟨callee, next, tokens⟩)
    (read : callTail callee tokens next = .ok out) : ExprRead Expr.callLevel start begin out := by
  rw [callTail_eq] at read
  split at read
  · rcases bind_eq_ok.mp read with ⟨list, listRead, tail⟩
    have listShorter := Reading.length_lt listRead
    exact callTail_sound (calleeRead.call rfl (arguments_sound listRead)) tail
  · cases read
    exact calleeRead
termination_by tokens.length * 6
decreasing_by all_goals subst_vars; simp only [List.length_cons] at *; omega

/-- The arguments of a call are sound. -/
theorem arguments_sound {tokens : List Token} {next : RefId} {out : Parsed (List Expr × Nat)}
    (read : arguments tokens next = .ok out) : ArgumentsRead maxArity tokens next out := by
  rw [arguments_eq] at read
  split at read
  · rename_i line rest
    cases read
    exact ⟨Passage.one (Mark.fits_symbolAt .rightParen line), trivial, Nat.zero_le _⟩
  · exact (argumentList_sound read).1
termination_by tokens.length * 6 + 5
decreasing_by all_goals subst_vars; omega

/-- Lists of arguments are sound, and not empty. -/
theorem argumentList_sound {room : Nat} {tokens : List Token} {next : RefId}
    {out : Parsed (List Expr × Nat)} (read : argumentList room tokens next = .ok out) :
    ArgumentsRead room tokens next out ∧ out.value.1 ≠ [] := by
  rw [argumentList_eq] at read
  split at read
  · cases read
  · rename_i room
    rcases bind_eq_ok.mp read with ⟨argument, argumentRead, tail⟩
    have argumentShorter : argument.rest.length < tokens.length := Reading.length_lt argumentRead
    have argumentSound := expression_sound argumentRead
    rcases argument with ⟨value, middle, follows⟩
    dsimp only at tail argumentShorter
    split at tail
    · rename_i line behind
      rcases bind_eq_ok.mp tail with ⟨others, othersRead, made⟩
      rcases argumentList_sound othersRead with ⟨othersSound, some⟩
      cases made
      refine ⟨⟨?_, ⟨argumentSound.wellFormed, othersSound.wellFormed⟩,
        Nat.succ_le_succ othersSound.few⟩, nofun⟩
      have joined := argumentSound.passage.append
        (othersSound.passage.cons (Mark.fits_symbol .comma line))
      simpa only [ofExprs, ofMoreExprs_of_ne_nil some, Expr.refsOf, List.append_assoc,
        List.cons_append] using joined
    · rename_i line behind
      cases tail
      refine ⟨⟨?_, ⟨argumentSound.wellFormed, trivial⟩, Nat.succ_le_succ (Nat.zero_le _)⟩, nofun⟩
      have closed := argumentSound.passage.concat (Mark.fits_symbolAt .rightParen line)
      simpa only [ofExprs, ofMoreExprs, Expr.refsOf, List.append_nil] using closed
    · cases tail
termination_by tokens.length * 6 + 4
decreasing_by all_goals subst_vars; simp only [List.length_cons] at *; omega

/-- Constants, variables and groups are sound. -/
theorem primary_sound {tokens : List Token} {next : RefId} {out : Parsed Expr}
    (read : primary tokens next = .ok out) : ExprRead Expr.primaryLevel tokens next out := by
  rw [primary_eq] at read
  split at read
  · cases read
  · rename_i name line rest
    cases read
    exact ⟨(Passage.one (Mark.fits_name name line)).refer, trivial, Nat.le_refl _⟩
  · rename_i line rest
    rcases bind_eq_ok.mp read with ⟨inner, innerRead, tail⟩
    rcases bind_eq_ok.mp tail with ⟨close, closeRead, made⟩
    rcases expect_ok closeRead with ⟨follows, same⟩
    have innerSound := expression_sound innerRead
    cases made
    have before := innerSound.passage
    rw [follows, ← same] at before
    exact ⟨(before.concat (Mark.fits_symbol .rightParen close.value)).cons
      (Mark.fits_symbol .leftParen line), innerSound.wellFormed, Nat.le_refl _⟩
  · rename_i token rest _ _
    split at read
    · rename_i constant found
      cases read
      have fits : (ofConstant constant).Fits token :=
        ⟨Constant.ofKind?_eq_some_iff.mp found, by rw [constant.line?_ofConstant]; nofun⟩
      exact ⟨Passage.one fits, Constant.writable_of_ofKind? found, Nat.le_refl _⟩
    · cases read
termination_by tokens.length * 6
decreasing_by all_goals subst_vars; simp only [List.length_cons] at *; omega

end

end Rule

end ScopedScript

import ScopedScript.Syntax.ExpressionParser
namespace ScopedScript

/-!
# What each rule of the grammar answers

The parser carries with every answer the fact that tokens were used up, because its recursion ends for
that reason.  Once it is known to end, the bound is in the way: two answers with different bounds cannot
even be compared.  Here every rule is given without its bound, as a plain function of the tokens and the
next free identity, together with the equation that it satisfies.

Later modules open no rule of the parser.  They use the equations of this one, and `length_lt` wherever
an argument goes by the number of tokens left.
-/

/-- What a rule read, without the bound: a value, the next free identity, and the tokens behind it. -/
structure Parsed (α : Type) where
  value : α
  next : RefId
  rest : List Token

namespace Read

/-- Forget the bound of what was read. -/
def parsed {α : Type} {bound : Nat} (read : Read α bound) : Parsed α :=
  ⟨read.value, read.next, read.rest⟩

end Read

namespace Reading

/-- Forget the bound of an answer. -/
def parsed {α : Type} {bound : Nat} (reading : Reading α bound) : Except SyntaxError (Parsed α) :=
  reading.map Read.parsed

/-- Two rules in a row are forgotten one after the other. -/
theorem parsed_bind {α β : Type} {inner outer : Nat} {first : Reading β inner}
    {second : Read β inner → Reading α outer} {plain : Parsed β → Except SyntaxError (Parsed α)}
    (agree : ∀ read, parsed (second read) = plain read.parsed) :
    parsed (first >>= second) = parsed first >>= plain := by
  cases first with
  | error _ => rfl
  | ok read => exact agree read

/-- An answer without its bound still uses up at least one token. -/
theorem length_lt {α : Type} {bound : Nat} {reading : Reading α bound} {out : Parsed α}
    (answered : reading.parsed = .ok out) : out.rest.length < bound := by
  cases reading with
  | error _ => exact nomatch answered
  | ok read =>
      cases answered
      exact read.shorter

end Reading

/-- A rule followed by another answers only when both do. -/
theorem bind_eq_ok {ε α β : Type} {first : Except ε α} {second : α → Except ε β} {result : β} :
    (first >>= second) = .ok result ↔ ∃ value, first = .ok value ∧ second value = .ok result := by
  cases first with
  | error _ => exact ⟨nofun, fun ⟨_, impossible, _⟩ => nomatch impossible⟩
  | ok value =>
      constructor
      · exact fun answered => ⟨value, rfl, answered⟩
      · rintro ⟨_, same, answered⟩
        cases same
        exact answered

/-- All tokens are within the bounds that the rules start with. -/
theorem length_le_self (tokens : List Token) : tokens.length ≤ tokens.length := Nat.le_refl _

theorem length_lt_succ (tokens : List Token) : tokens.length < tokens.length + 1 := Nat.lt_succ_self _

namespace Rule

open ScopedScript.Parser

/-! ## Expressions -/

/-- An expression, assignments included. -/
def expression (tokens : List Token) (next : RefId) : Except SyntaxError (Parsed Expr) :=
  (Parser.expression tokens next).parsed

/-- An operand and all operators of at least the given level behind it. -/
def chain (level : Nat) (tokens : List Token) (next : RefId) : Except SyntaxError (Parsed Expr) :=
  (Parser.chain level tokens next).parsed

/-- The operators of at least the given level behind a left operand. -/
def chainTail (level : Nat) (left : Expr) (tokens : List Token) (next : RefId) :
    Except SyntaxError (Parsed Expr) :=
  (Parser.chainTail level left tokens next (length_lt_succ tokens)).parsed

/-- Unary operators and what they apply to. -/
def unary (tokens : List Token) (next : RefId) : Except SyntaxError (Parsed Expr) :=
  (Parser.unary tokens next).parsed

/-- The argument lists behind a callee. -/
def callTail (callee : Expr) (tokens : List Token) (next : RefId) :
    Except SyntaxError (Parsed Expr) :=
  (Parser.callTail callee tokens next (length_lt_succ tokens)).parsed

/-- The arguments of a call, and the line of its closing parenthesis. -/
def arguments (tokens : List Token) (next : RefId) :
    Except SyntaxError (Parsed (List Expr × Nat)) :=
  (Parser.arguments tokens next).parsed

/-- At least one argument and at most as many as there is room for. -/
def argumentList (room : Nat) (tokens : List Token) (next : RefId) :
    Except SyntaxError (Parsed (List Expr × Nat)) :=
  (Parser.argumentList room tokens next).parsed

/-- Constants, variables and groups. -/
def primary (tokens : List Token) (next : RefId) : Except SyntaxError (Parsed Expr) :=
  (Parser.primary tokens next).parsed

/-- One symbol. -/
def expect (wanted : Symbol) (complaint : Complaint) (tokens : List Token) (next : RefId) :
    Except SyntaxError (Parsed Nat) :=
  (Parser.expect wanted complaint tokens next).parsed

/-- One name. -/
def identifier (complaint : Complaint) (tokens : List Token) (next : RefId) :
    Except SyntaxError (Parsed Identifier) :=
  (Parser.identifier complaint tokens next).parsed

theorem expression_eq (tokens : List Token) (next : RefId) :
    expression tokens next = (do
      let target ← chain 1 tokens next
      match target.rest with
      | ⟨.symbol .equal, line⟩ :: behind =>
        let source ← expression behind target.next
        match target.value with
        | .variable _ name =>
          .ok ⟨.assign source.next name source.value, source.next + 1, source.rest⟩
        | _ => refuse .assignmentTarget (⟨.symbol .equal, line⟩ :: behind)
      | _ => .ok target) := by
  unfold expression chain
  rw [Parser.expression]
  refine Reading.parsed_bind fun target => ?_
  rcases target with ⟨value, next', rest, shorter⟩
  rcases rest with _ | ⟨⟨kind, line⟩, behind⟩
  · rfl
  · cases kind with
    | symbol s =>
        cases s with
        | equal =>
            refine Reading.parsed_bind fun source => ?_
            cases value <;> rfl
        | _ => rfl
    | _ => rfl

/-- The bound of a tail does not change its answer. -/
private theorem chainTail_bound {bound : Nat} (level : Nat) (left : Expr) (tokens : List Token)
    (next : RefId) (within : tokens.length < bound) :
    (Parser.chainTail level left tokens next within).parsed = chainTail level left tokens next := by
  unfold chainTail Parser.chainTail
  match tokens, within with
  | [], _ => rfl
  | token :: rest, within =>
      dsimp only
      cases Connective.ofKind? token.kind with
      | none => rfl
      | some connective =>
          dsimp only
          split
          · rfl
          · cases Parser.chain (connective.level + 1) rest next with
            | error _ => rfl
            | ok right =>
                have := right.shorter
                exact (chainTail_bound level _ right.rest right.next _).trans
                  (chainTail_bound level _ right.rest right.next _).symm
termination_by tokens.length
decreasing_by all_goals simp only [List.length_cons]; omega

theorem chain_eq (level : Nat) (tokens : List Token) (next : RefId) :
    chain level tokens next = (do
      let first ← unary tokens next
      chainTail level first.value first.rest first.next) := by
  unfold chain unary
  rw [Parser.chain]
  exact Reading.parsed_bind fun first =>
    chainTail_bound level first.value first.rest first.next first.shorter

theorem chainTail_eq (level : Nat) (left : Expr) (tokens : List Token) (next : RefId) :
    chainTail level left tokens next = (
      match tokens with
      | [] => .ok ⟨left, next, []⟩
      | token :: rest =>
        match Connective.ofKind? token.kind with
        | none => .ok ⟨left, next, token :: rest⟩
        | some connective =>
          if connective.level < level then .ok ⟨left, next, token :: rest⟩
          else do
            let right ← chain (connective.level + 1) rest next
            chainTail level (connective.apply token.line left right.value) right.rest right.next) := by
  rw [chainTail]
  unfold Parser.chainTail
  match tokens with
  | [] => rfl
  | token :: rest =>
      dsimp only
      cases Connective.ofKind? token.kind with
      | none => rfl
      | some connective =>
          dsimp only
          split
          · rfl
          · exact Reading.parsed_bind fun right => chainTail_bound level _ right.rest right.next _

/-- The bound of a tail does not change its answer. -/
private theorem callTail_bound {bound : Nat} (callee : Expr) (tokens : List Token) (next : RefId)
    (within : tokens.length < bound) :
    (Parser.callTail callee tokens next within).parsed = callTail callee tokens next := by
  unfold callTail Parser.callTail
  split
  · rename_i rest within
    cases Parser.arguments rest next with
    | error _ => rfl
    | ok list =>
        have := list.shorter
        exact (callTail_bound _ list.rest list.next _).trans (callTail_bound _ list.rest list.next _).symm
  · rename_i notOpen
    split
    · exact absurd HEq.rfl (notOpen _ _ _ rfl)
    · rfl
termination_by tokens.length
decreasing_by all_goals subst_vars; simp only [List.length_cons]; omega

theorem callTail_eq (callee : Expr) (tokens : List Token) (next : RefId) :
    callTail callee tokens next = (
      match tokens with
      | ⟨.symbol .leftParen, _⟩ :: rest => do
        let list ← arguments rest next
        callTail (.call callee list.value.2 list.value.1) list.rest list.next
      | tokens => .ok ⟨callee, next, tokens⟩) := by
  rw [callTail]
  unfold Parser.callTail
  split
  · exact Reading.parsed_bind fun list => callTail_bound _ list.rest list.next _
  · rename_i notOpen
    split
    · exact absurd HEq.rfl (notOpen _ _ _ rfl)
    · rfl

theorem unary_eq (tokens : List Token) (next : RefId) :
    unary tokens next = (
      match tokens with
      | [] => refuse .expression []
      | token :: rest =>
        match UnaryOp.ofKind? token.kind with
        | some op => do
          let operand ← unary rest next
          .ok ⟨.unary op token.line operand.value, operand.next, operand.rest⟩
        | none => do
          let callee ← primary (token :: rest) next
          callTail callee.value callee.rest callee.next) := by
  rw [unary]
  unfold Parser.unary
  match tokens with
  | [] => rfl
  | token :: rest =>
      dsimp only
      cases UnaryOp.ofKind? token.kind with
      | none => exact Reading.parsed_bind fun callee => callTail_bound _ callee.rest callee.next _
      | some op => exact Reading.parsed_bind fun operand => rfl

theorem arguments_eq (tokens : List Token) (next : RefId) :
    arguments tokens next = (
      match tokens with
      | ⟨.symbol .rightParen, line⟩ :: rest => .ok ⟨([], line), next, rest⟩
      | tokens => argumentList maxArity tokens next) := by
  rw [arguments]
  unfold Parser.arguments
  rcases tokens with _ | ⟨⟨kind, line⟩, rest⟩
  · rfl
  · cases kind with
    | symbol s => cases s <;> rfl
    | _ => rfl

theorem argumentList_eq (room : Nat) (tokens : List Token) (next : RefId) :
    argumentList room tokens next = (
      match room with
      | 0 => refuse .tooManyArguments tokens
      | room + 1 => do
        let argument ← expression tokens next
        match argument.rest with
        | ⟨.symbol .comma, _⟩ :: behind =>
          let others ← argumentList room behind argument.next
          .ok ⟨(argument.value :: others.value.1, others.value.2), others.next, others.rest⟩
        | ⟨.symbol .rightParen, line⟩ :: behind =>
          .ok ⟨([argument.value], line), argument.next, behind⟩
        | rest => refuse .argumentsClose rest) := by
  unfold argumentList expression
  rw [Parser.argumentList.eq_def]
  cases room with
  | zero => rfl
  | succ room =>
      refine Reading.parsed_bind fun argument => ?_
      rcases argument with ⟨value, next', rest, shorter⟩
      rcases rest with _ | ⟨⟨kind, line⟩, behind⟩
      · rfl
      · cases kind with
        | symbol s =>
            cases s with
            | comma => exact Reading.parsed_bind fun others => rfl
            | _ => rfl
        | _ => rfl

theorem expect_eq (wanted : Symbol) (complaint : Complaint) (tokens : List Token) (next : RefId) :
    expect wanted complaint tokens next =
      match tokens with
      | ⟨.symbol found, line⟩ :: rest =>
        if found = wanted then .ok ⟨line, next, rest⟩
        else refuse complaint (⟨.symbol found, line⟩ :: rest)
      | tokens => refuse complaint tokens := by
  rw [expect]
  unfold Parser.expect
  rcases tokens with _ | ⟨⟨kind, line⟩, rest⟩
  · rfl
  · cases kind with
    | symbol found =>
        by_cases same : found = wanted
        · simp only [if_pos same]
          rfl
        · simp only [if_neg same]
          rfl
    | _ => rfl

theorem identifier_eq (complaint : Complaint) (tokens : List Token) (next : RefId) :
    identifier complaint tokens next =
      match tokens with
      | ⟨.identifier name, line⟩ :: rest => .ok ⟨⟨name, line⟩, next, rest⟩
      | tokens => refuse complaint tokens := by
  rw [identifier]
  unfold Parser.identifier
  rcases tokens with _ | ⟨⟨kind, line⟩, rest⟩
  · rfl
  · cases kind <;> rfl

theorem primary_eq (tokens : List Token) (next : RefId) :
    primary tokens next =
      match tokens with
      | [] => refuse .expression []
      | ⟨.identifier name, line⟩ :: rest => .ok ⟨.variable next ⟨name, line⟩, next + 1, rest⟩
      | ⟨.symbol .leftParen, _⟩ :: rest => do
        let inner ← expression rest next
        let close ← expect .rightParen .groupClose inner.rest inner.next
        .ok ⟨.group inner.value, close.next, close.rest⟩
      | token :: rest =>
        match Constant.ofKind? token.kind with
        | some constant => .ok ⟨.constant constant, next, rest⟩
        | none => refuse .expression (token :: rest) := by
  rw [primary]
  unfold Parser.primary
  split
  · rfl
  · rfl
  · exact Reading.parsed_bind fun inner => Reading.parsed_bind fun close => rfl
  · rename_i token rest noName noGroup
    rcases token with ⟨kind, line⟩
    cases kind with
    | identifier name => exact absurd rfl (noName name line)
    | symbol s =>
        cases s with
        | leftParen => exact absurd rfl (noGroup line)
        | _ => rfl
    | keyword k => cases k <;> rfl
    | string body => rfl
    | number numeral => rfl

end Rule

end ScopedScript

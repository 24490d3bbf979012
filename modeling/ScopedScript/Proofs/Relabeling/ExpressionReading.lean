import ScopedScript.Proofs.Grammar.ExpressionSoundness
import ScopedScript.Proofs.Relabeling.Trees
namespace ScopedScript

/-!
# Expressions read at another place

A text can stand at another place than it did: on other lines, behind other references, and in front of
further tokens.  A rule that has read something reads the same there, up to a relabeling, as long as the
further tokens do not come so close that they could belong to what was read.  For an expression that means
that there are none, or that something was left behind it.
-/

/-- A place where tokens may stand: on other lines, behind other references, and before more tokens. -/
structure Place where
  line : Nat → Nat
  /-- How many more references come before. -/
  offset : RefId := 0
  more : List Token := []

namespace Place

/-- What becomes of the identities and lines of a tree. -/
def labels (place : Place) : Relabeling := ⟨(place.offset + ·), place.line⟩

/-- Tokens at this place, with what stands behind them. -/
def tokens (place : Place) (tokens : List Token) : List Token :=
  tokens.map (Token.relabel place.labels) ++ place.more

/-- What is read at this place instead. -/
def parsed {α β : Type} (place : Place) (f : α → β) (out : Parsed α) : Parsed β :=
  ⟨f out.value, place.offset + out.next, place.tokens out.rest⟩

/-- Nothing more comes directly behind what was left. -/
def Apart (place : Place) (rest : List Token) : Prop := rest = [] → place.more = []

variable {place : Place}

theorem tokens_cons (token : Token) (rest : List Token) :
    place.tokens (token :: rest) = ⟨token.kind, place.line token.line⟩ :: place.tokens rest := rfl

theorem Apart.of_le {rest later : List Token} (apart : place.Apart later)
    (fewer : later.length ≤ rest.length) : place.Apart rest := by
  intro empty
  subst empty
  exact apart (List.eq_nil_of_length_eq_zero (Nat.le_zero.mp fewer))

theorem Apart.of_lt {rest : List Token} {fewer : Nat} (some : fewer < rest.length) :
    place.Apart rest := by
  intro empty
  rw [empty] at some
  exact absurd some (Nat.not_lt_zero fewer)

/-- Something is left. -/
theorem Apart.cons (token : Token) (rest : List Token) : place.Apart (token :: rest) := nofun

/-- What does not come next does not come next at this place either. -/
theorem absent {rest : List Token} {kind : TokenKind} (apart : place.Apart rest)
    (unseen : ∀ line behind, rest ≠ ⟨kind, line⟩ :: behind) (line : Nat) (behind : List Token) :
    place.tokens rest ≠ ⟨kind, line⟩ :: behind := by
  intro placed
  cases rest with
  | nil =>
      have nothing : place.tokens [] = [] := apart rfl
      rw [nothing] at placed
      cases placed
  | cons first others =>
      rcases first with ⟨kind, line⟩
      cases placed
      exact unseen line others rfl

end Place

namespace Rule

open ScopedScript.Parser (refuse)

variable {place : Place}

theorem expect_placed {wanted : Symbol} {complaint : Complaint} {tokens : List Token} {next : RefId}
    {out : Parsed Nat} (read : expect wanted complaint tokens next = .ok out) :
    expect wanted complaint (place.tokens tokens) (place.offset + next) =
      .ok (place.parsed place.line out) := by
  rcases expect_ok read with ⟨follows, same⟩
  rcases out with ⟨line, after, rest⟩
  subst follows same
  rw [expect_eq]
  exact if_pos rfl

theorem identifier_placed {complaint : Complaint} {tokens : List Token} {next : RefId}
    {out : Parsed Identifier} (read : identifier complaint tokens next = .ok out) :
    identifier complaint (place.tokens tokens) (place.offset + next) =
      .ok (place.parsed (Identifier.relabel place.labels) out) := by
  rcases identifier_ok read with ⟨follows, same⟩
  rcases out with ⟨name, after, rest⟩
  subst follows same
  rw [identifier_eq]
  rfl

mutual

theorem expression_placed {tokens : List Token} {next : RefId} {out : Parsed Expr}
    (read : expression tokens next = .ok out) (apart : place.Apart out.rest) :
    expression (place.tokens tokens) (place.offset + next) =
      .ok (place.parsed (Expr.relabel place.labels) out) := by
  rw [expression_eq] at read ⊢
  rcases bind_eq_ok.mp read with ⟨target, targetRead, tail⟩
  have targetShorter : target.rest.length < tokens.length := Reading.length_lt targetRead
  rcases target with ⟨value, middle, follows⟩
  dsimp only at tail targetShorter
  split at tail
  · rename_i line behind
    rcases bind_eq_ok.mp tail with ⟨source, sourceRead, made⟩
    split at made
    · cases made
      have sourcePlaced := expression_placed sourceRead apart
      rw [chain_placed targetRead (.cons _ _)]
      dsimp only [bind, Except.bind, Place.parsed]
      rw [Place.tokens_cons]
      dsimp only
      rw [sourcePlaced]
      rfl
    · cases made
  · rename_i notEqual
    cases tail
    rw [chain_placed targetRead apart]
    dsimp only [bind, Except.bind, Place.parsed]
    split
    · rename_i placed
      exact absurd placed (Place.absent apart notEqual _ _)
    · rfl
termination_by tokens.length * 6 + 3
decreasing_by
  all_goals subst_vars; simp only [List.length_cons] at *; omega

theorem chain_placed {level : Nat} {tokens : List Token} {next : RefId} {out : Parsed Expr}
    (read : chain level tokens next = .ok out) (apart : place.Apart out.rest) :
    chain level (place.tokens tokens) (place.offset + next) =
      .ok (place.parsed (Expr.relabel place.labels) out) := by
  rw [chain_eq] at read ⊢
  rcases bind_eq_ok.mp read with ⟨first, firstRead, tail⟩
  have firstShorter : first.rest.length < tokens.length := Reading.length_lt firstRead
  have tailShorter : out.rest.length < first.rest.length + 1 := Reading.length_lt tail
  rw [unary_placed firstRead (apart.of_le (Nat.le_of_lt_succ tailShorter))]
  exact chainTail_placed tail apart
termination_by tokens.length * 6 + 2

theorem chainTail_placed {level : Nat} {left : Expr} {tokens : List Token} {next : RefId}
    {out : Parsed Expr} (read : chainTail level left tokens next = .ok out)
    (apart : place.Apart out.rest) :
    chainTail level (left.relabel place.labels) (place.tokens tokens) (place.offset + next) =
      .ok (place.parsed (Expr.relabel place.labels) out) := by
  rw [chainTail_eq] at read ⊢
  cases tokens with
  | nil =>
      cases read
      -- An operator behind the end would go on with the chain, so nothing may stand there.
      have nothing : place.tokens [] = [] := apart rfl
      rw [nothing]
      dsimp only [Place.parsed]
      rw [nothing]
  | cons token rest =>
      rw [Place.tokens_cons]
      dsimp only at read ⊢
      cases operator : Connective.ofKind? token.kind with
      | none =>
          rw [operator] at read
          cases read
          rfl
      | some connective =>
          rw [operator] at read
          dsimp only at read ⊢
          split at read
          · rename_i tooLow
            cases read
            rw [if_pos tooLow]
            rfl
          · rename_i highEnough
            rcases bind_eq_ok.mp read with ⟨right, rightRead, tail⟩
            have rightShorter : right.rest.length < rest.length := Reading.length_lt rightRead
            have tailShorter : out.rest.length < right.rest.length + 1 := Reading.length_lt tail
            have tailPlaced := chainTail_placed tail apart
            rw [if_neg highEnough,
              chain_placed rightRead (apart.of_le (Nat.le_of_lt_succ tailShorter))]
            cases connective <;> exact tailPlaced
termination_by tokens.length * 6
decreasing_by all_goals subst_vars; simp only [List.length_cons] at *; omega

theorem unary_placed {tokens : List Token} {next : RefId} {out : Parsed Expr}
    (read : unary tokens next = .ok out) (apart : place.Apart out.rest) :
    unary (place.tokens tokens) (place.offset + next) =
      .ok (place.parsed (Expr.relabel place.labels) out) := by
  rw [unary_eq] at read ⊢
  cases tokens with
  | nil => cases read
  | cons token rest =>
      rw [Place.tokens_cons]
      dsimp only at read ⊢
      cases operator : UnaryOp.ofKind? token.kind with
      | some op =>
          rw [operator] at read
          rcases bind_eq_ok.mp read with ⟨operand, operandRead, made⟩
          cases made
          dsimp only
          rw [unary_placed operandRead apart]
          rfl
      | none =>
          rw [operator] at read
          rcases bind_eq_ok.mp read with ⟨callee, calleeRead, tail⟩
          have calleeShorter : callee.rest.length < (token :: rest).length :=
            Reading.length_lt calleeRead
          have tailShorter : out.rest.length < callee.rest.length + 1 := Reading.length_lt tail
          have calleePlaced :=
            primary_placed calleeRead (apart.of_le (Nat.le_of_lt_succ tailShorter))
          rw [Place.tokens_cons] at calleePlaced
          dsimp only
          rw [calleePlaced]
          exact callTail_placed tail apart
termination_by tokens.length * 6 + 1
decreasing_by all_goals subst_vars; simp only [List.length_cons] at *; omega

theorem callTail_placed {callee : Expr} {tokens : List Token} {next : RefId} {out : Parsed Expr}
    (read : callTail callee tokens next = .ok out) (apart : place.Apart out.rest) :
    callTail (callee.relabel place.labels) (place.tokens tokens) (place.offset + next) =
      .ok (place.parsed (Expr.relabel place.labels) out) := by
  rw [callTail_eq] at read ⊢
  split at read
  · rename_i line rest
    rcases bind_eq_ok.mp read with ⟨list, listRead, tail⟩
    have listShorter : list.rest.length < rest.length := Reading.length_lt listRead
    rw [Place.tokens_cons]
    dsimp only
    rw [arguments_placed listRead]
    exact callTail_placed tail apart
  · rename_i notOpen
    cases read
    split
    · rename_i placed
      exact absurd placed (Place.absent apart notOpen _ _)
    · rfl
termination_by tokens.length * 6
decreasing_by all_goals subst_vars; simp only [List.length_cons] at *; omega

theorem arguments_placed {tokens : List Token} {next : RefId} {out : Parsed (List Expr × Nat)}
    (read : arguments tokens next = .ok out) :
    arguments (place.tokens tokens) (place.offset + next) =
      .ok (place.parsed (Prod.map (Expr.relabelAll place.labels) place.line) out) := by
  rw [arguments_eq] at read ⊢
  split at read
  · cases read
    rfl
  · rename_i notClosed
    have listPlaced := argumentList_placed read
    split
    · rename_i placed
      exact absurd placed (Place.absent (.of_lt (Reading.length_lt read)) notClosed _ _)
    · exact listPlaced
termination_by tokens.length * 6 + 5
decreasing_by all_goals subst_vars; omega

theorem argumentList_placed {room : Nat} {tokens : List Token} {next : RefId}
    {out : Parsed (List Expr × Nat)} (read : argumentList room tokens next = .ok out) :
    argumentList room (place.tokens tokens) (place.offset + next) =
      .ok (place.parsed (Prod.map (Expr.relabelAll place.labels) place.line) out) := by
  rw [argumentList_eq] at read ⊢
  cases room with
  | zero => cases read
  | succ room =>
      rcases bind_eq_ok.mp read with ⟨argument, argumentRead, tail⟩
      have argumentShorter : argument.rest.length < tokens.length := Reading.length_lt argumentRead
      rcases argument with ⟨value, middle, follows⟩
      dsimp only at tail argumentShorter ⊢
      split at tail
      · rcases bind_eq_ok.mp tail with ⟨others, othersRead, made⟩
        have othersPlaced := argumentList_placed othersRead
        cases made
        rw [expression_placed argumentRead (.cons _ _)]
        dsimp only [bind, Except.bind, Place.parsed]
        rw [Place.tokens_cons]
        dsimp only
        rw [othersPlaced]
        rfl
      · cases tail
        rw [expression_placed argumentRead (.cons _ _)]
        rfl
      · cases tail
termination_by tokens.length * 6 + 4
decreasing_by all_goals subst_vars; simp only [List.length_cons] at *; omega

theorem primary_placed {tokens : List Token} {next : RefId} {out : Parsed Expr}
    (read : primary tokens next = .ok out) (apart : place.Apart out.rest) :
    primary (place.tokens tokens) (place.offset + next) =
      .ok (place.parsed (Expr.relabel place.labels) out) := by
  rw [primary_eq] at read ⊢
  split at read
  · cases read
  · cases read
    rfl
  · rename_i line rest
    rcases bind_eq_ok.mp read with ⟨inner, innerRead, tail⟩
    rcases bind_eq_ok.mp tail with ⟨close, closeRead, made⟩
    rcases expect_ok closeRead with ⟨follows, _⟩
    have innerPlaced := expression_placed innerRead (by rw [follows]; exact .cons _ _)
    cases made
    rw [Place.tokens_cons]
    dsimp only
    rw [innerPlaced]
    dsimp only [bind, Except.bind, Place.parsed]
    rw [expect_placed closeRead]
    rfl
  · rename_i token rest noName noGroup
    split at read
    · rename_i constant found
      cases read
      rw [Place.tokens_cons]
      split
      · rename_i impossible
        cases impossible
      · rename_i same
        cases token
        cases same
        exact absurd rfl (noName _ _)
      · rename_i same
        cases token
        cases same
        exact absurd rfl (noGroup _)
      · rename_i same
        cases same
        dsimp only
        rw [found]
        rfl
    · cases read
termination_by tokens.length * 6
decreasing_by all_goals subst_vars; simp only [List.length_cons] at *; omega

end

end Rule

end ScopedScript

import ScopedScript.Proofs.Grammar.Passage
namespace ScopedScript

/-!
# Operators and constants as tokens

The parser asks which operator or constant a token stands for, and the spelling says which token an
operator or constant is written with.  Both are tables, and each is the inverse of the other.
-/

namespace Connective

/-- The token that an operator between two operands is written with. -/
def kind : Connective → TokenKind
  | logical op => .keyword op.keyword
  | binary op => .symbol op.symbol

/-- The mark of an operator.  Only the binary ones remember their line. -/
def mark (line : Nat) : Connective → Mark
  | logical op => .keyword op.keyword
  | binary op => .symbolAt op.symbol line

theorem fits_mark (connective : Connective) (line : Nat) :
    (connective.mark line).Fits ⟨connective.kind, line⟩ := by
  cases connective with
  | logical op => exact Mark.fits_keyword op.keyword line
  | binary op => exact Mark.fits_symbolAt op.symbol line

/-- A token is read as an operator exactly when that operator is written with it. -/
theorem ofKind?_eq_some_iff {kind : TokenKind} {connective : Connective} :
    ofKind? kind = some connective ↔ kind = connective.kind := by
  constructor
  · intro found
    cases kind with
    | symbol s => cases s <;> cases found <;> rfl
    | keyword k => cases k <;> cases found <;> rfl
    | identifier _ => cases found
    | string _ => cases found
    | number _ => cases found
  · intro same
    subst same
    cases connective with
    | logical op => cases op <;> rfl
    | binary op => cases op <;> rfl

/-- Every operator between two operands is above assignment and below the unary operators. -/
theorem level_bounds (connective : Connective) :
    1 ≤ connective.level ∧ connective.level < Expr.unaryLevel := by
  cases connective with
  | logical op => cases op <;> decide
  | binary op => cases op <;> decide

variable (connective : Connective) (line : Nat) (left right : Expr)

@[simp] theorem level_apply : (connective.apply line left right).level = connective.level := by
  cases connective <;> rfl

@[simp] theorem refs_apply : (connective.apply line left right).refs = left.refs ++ right.refs := by
  cases connective <;> rfl

theorem ofExpr_apply : Spelling.ofExpr (connective.apply line left right) =
    Spelling.ofExpr left ++ connective.mark line :: Spelling.ofExpr right := by
  cases connective <;> rfl

theorem wellFormed_apply : (connective.apply line left right).WellFormed ↔
    left.WellFormed ∧ right.WellFormed ∧
      connective.level ≤ left.level ∧ connective.level < right.level := by
  cases connective <;> exact Iff.rfl

end Connective

namespace UnaryOp

/-- A token is read as a unary operator exactly when that operator is written with it. -/
theorem ofKind?_eq_some_iff {kind : TokenKind} {op : UnaryOp} :
    ofKind? kind = some op ↔ kind = .symbol op.symbol := by
  constructor
  · intro found
    cases kind with
    | symbol s => cases s <;> cases found <;> rfl
    | keyword _ => cases found
    | identifier _ => cases found
    | string _ => cases found
    | number _ => cases found
  · intro same
    subst same
    cases op <;> rfl

end UnaryOp

namespace Constant

/-- A token is read as a constant exactly when it is what that constant is written with. -/
theorem ofKind?_eq_some_iff {kind : TokenKind} {constant : Constant} :
    ofKind? kind = some constant ↔ kind.glyph = (Spelling.ofConstant constant).glyph := by
  constructor
  · intro found
    cases kind with
    | symbol _ => cases found
    | keyword k => cases k <;> cases found <;> rfl
    | identifier _ => cases found
    | string _ => cases found; rfl
    | number _ => cases found; rfl
  · intro same
    cases constant with
    | number value =>
        cases kind <;> cases same
        rfl
    | text value =>
        cases kind <;> cases same
        rfl
    | truth value =>
        cases value <;> cases kind <;> cases same <;> rfl
    | nil =>
        cases kind <;> cases same
        rfl

/-- No constant remembers a line. -/
theorem line?_ofConstant (constant : Constant) : (Spelling.ofConstant constant).line? = none := by
  cases constant with
  | truth value => cases value <;> rfl
  | _ => rfl

/-- What a token stands for can be written, namely with that token. -/
theorem writable_of_ofKind? {kind : TokenKind} {constant : Constant}
    (found : ofKind? kind = some constant) : constant.Writable := by
  cases kind with
  | symbol _ => cases found
  | keyword k => cases k <;> cases found <;> trivial
  | identifier _ => cases found
  | string _ => cases found; trivial
  | number numeral => cases found; exact ⟨numeral, rfl⟩

end Constant

/-! ## What may come next -/

/-- No operator of at least the given level comes next. -/
def Stops (level : Nat) (tokens : List Token) : Prop :=
  ∀ token rest connective, tokens = token :: rest →
    Connective.ofKind? token.kind = some connective → connective.level < level

/-- No `else` comes next. -/
def NoElse (tokens : List Token) : Prop :=
  ∀ line rest, tokens ≠ ⟨.keyword .elseWord, line⟩ :: rest

/-- No opening parenthesis comes next. -/
def NoCall (tokens : List Token) : Prop :=
  ∀ line rest, tokens ≠ ⟨.symbol .leftParen, line⟩ :: rest

end ScopedScript

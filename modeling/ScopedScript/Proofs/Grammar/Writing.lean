import ScopedScript.Proofs.Grammar.Operators
namespace ScopedScript

/-!
# Writing a program down

Every well-formed program has a text: tokens that fit its marks one by one, on the lines that the tree
remembers.  Only numbers need care, because not every number is the value of a numeral; that is why a
well-formed tree has writable constants only.
-/

open Spelling

/-- Some tokens fit the marks. -/
def Spellable (marks : List Mark) : Prop :=
  ∃ tokens, List.Forall₂ Mark.Fits marks tokens

namespace Spellable

variable {mark : Mark} {marks others : List Mark} {token : Token}

theorem nil : Spellable [] := ⟨[], .nil⟩

theorem cons (fits : mark.Fits token) (rest : Spellable marks) : Spellable (mark :: marks) := by
  rcases rest with ⟨tokens, fit⟩
  exact ⟨token :: tokens, .cons fits fit⟩

theorem append (first : Spellable marks) (second : Spellable others) : Spellable (marks ++ others) := by
  rcases first with ⟨tokens, fit⟩
  rcases second with ⟨tokensToo, fitToo⟩
  exact ⟨tokens ++ tokensToo, List.rel_append fit fitToo⟩

theorem symbol (s : Symbol) (rest : Spellable marks) : Spellable (.symbol s :: marks) :=
  rest.cons (Mark.fits_symbol s 0)

theorem symbolAt (s : Symbol) (line : Nat) (rest : Spellable marks) :
    Spellable (.symbolAt s line :: marks) :=
  rest.cons (Mark.fits_symbolAt s line)

theorem keyword (k : Keyword) (rest : Spellable marks) : Spellable (.keyword k :: marks) :=
  rest.cons (Mark.fits_keyword k 0)

theorem keywordAt (k : Keyword) (line : Nat) (rest : Spellable marks) :
    Spellable (.keywordAt k line :: marks) :=
  rest.cons (Mark.fits_keywordAt k line)

theorem name (target : Identifier) (rest : Spellable marks) : Spellable (.name target :: marks) :=
  rest.cons (Mark.fits_name target.name target.line)

end Spellable

/-- A writable constant is written with one token. -/
theorem Constant.spellable {constant : Constant} (writable : constant.Writable) :
    Spellable [ofConstant constant] := by
  have written : ∃ kind : TokenKind, kind.glyph = (ofConstant constant).glyph := by
    cases constant with
    | number value =>
        rcases writable with ⟨numeral, same⟩
        exact ⟨.number numeral, congrArg (Glyph.literal ∘ TokenLiteral.number) same⟩
    | text value => exact ⟨.string value, rfl⟩
    | truth value =>
        cases value with
        | false => exact ⟨.keyword .falseWord, rfl⟩
        | true => exact ⟨.keyword .trueWord, rfl⟩
    | nil => exact ⟨.keyword .nilWord, rfl⟩
  rcases written with ⟨kind, same⟩
  have fits : (ofConstant constant).Fits ⟨kind, 0⟩ := by
    refine ⟨same, fun line remembered => ?_⟩
    rw [constant.line?_ofConstant] at remembered
    cases remembered
  exact Spellable.nil.cons fits

namespace Expr

mutual

/-- Every well-formed expression can be written. -/
theorem spellable : ∀ e : Expr, e.WellFormed → Spellable (ofExpr e)
  | .constant _, wellFormed => Constant.spellable wellFormed
  | .group inner, wellFormed =>
      ((inner.spellable wellFormed).append (Spellable.nil.symbol .rightParen)).symbol .leftParen
  | .unary op line operand, ⟨wellFormed, _⟩ => (operand.spellable wellFormed).symbolAt op.symbol line
  | .binary op line left right, ⟨leftFormed, rightFormed, _, _⟩ =>
      (left.spellable leftFormed).append ((right.spellable rightFormed).symbolAt op.symbol line)
  | .logical op left right, ⟨leftFormed, rightFormed, _, _⟩ =>
      (left.spellable leftFormed).append ((right.spellable rightFormed).keyword op.keyword)
  | .variable _ target, _ => Spellable.nil.name target
  | .assign _ target value, wellFormed =>
      ((value.spellable wellFormed).symbol .equal).name target
  | .call callee line arguments, ⟨calleeFormed, _, _, argumentsFormed⟩ =>
      (callee.spellable calleeFormed).append
        (((spellable_ofExprs arguments argumentsFormed).append
          (Spellable.nil.symbolAt .rightParen line)).symbol .leftParen)

theorem spellable_ofExprs : ∀ es : List Expr, AllWellFormed es → Spellable (ofExprs es)
  | [], _ => .nil
  | first :: rest, ⟨wellFormed, restFormed⟩ =>
      (first.spellable wellFormed).append (spellable_ofMoreExprs rest restFormed)

theorem spellable_ofMoreExprs : ∀ es : List Expr, AllWellFormed es → Spellable (ofMoreExprs es)
  | [], _ => .nil
  | first :: rest, ⟨wellFormed, restFormed⟩ =>
      ((first.spellable wellFormed).append (spellable_ofMoreExprs rest restFormed)).symbol .comma

end

theorem spellable_ofExpr? : ∀ e : Option Expr, WellFormed? e → Spellable (ofExpr? e)
  | none, _ => .nil
  | some e, wellFormed => e.spellable wellFormed

theorem spellable_ofInitializer : ∀ e : Option Expr, WellFormed? e → Spellable (ofInitializer e)
  | none, _ => .nil
  | some e, wellFormed => (e.spellable wellFormed).symbol .equal

end Expr

theorem spellable_ofMoreNames (names : List Identifier) : Spellable (ofMoreNames names) := by
  induction names with
  | nil => exact .nil
  | cons name others inductionHypothesis => exact (inductionHypothesis.name name).symbol .comma

theorem spellable_ofNames : ∀ names : List Identifier, Spellable (ofNames names)
  | [] => .nil
  | name :: others => (spellable_ofMoreNames others).name name

namespace Stmt

theorem spellable_declare (target : Identifier) {value : Option Expr}
    (wellFormed : Expr.WellFormed? value) : Spellable (ofStmt (.declare target value)) :=
  (((Expr.spellable_ofInitializer value wellFormed).append (Spellable.nil.symbol .semicolon)).name
    target).keyword .varWord

theorem spellable_expression {value : Expr} (wellFormed : value.WellFormed) :
    Spellable (ofStmt (.expression value)) :=
  (value.spellable wellFormed).append (Spellable.nil.symbol .semicolon)

theorem spellable_ofForInitializer : ∀ first : Option Stmt, InitializerWellFormed first →
    Spellable (ofForInitializer first)
  | none, _ => Spellable.nil.symbol .semicolon
  | some (.declare target _), wellFormed => spellable_declare target wellFormed
  | some (.expression _), wellFormed => spellable_expression wellFormed

mutual

/-- Every well-formed statement can be written. -/
theorem spellable : ∀ s : Stmt, s.WellFormed → Spellable (ofStmt s)
  | .expression _, wellFormed => spellable_expression wellFormed
  | .print line values, ⟨_, wellFormed⟩ =>
      ((Expr.spellable_ofExprs values wellFormed).append
        (Spellable.nil.symbol .semicolon)).keywordAt .printWord line
  | .declare target _, wellFormed => spellable_declare target wellFormed
  | .block body, wellFormed =>
      ((spellable_ofStmts body wellFormed).append (Spellable.nil.symbol .rightBrace)).symbol .leftBrace
  | .branch condition whenTrue whenFalse, ⟨conditionFormed, trueFormed, _, _, falseFormed⟩ =>
      (((condition.spellable conditionFormed).append
        (((whenTrue.spellable trueFormed).append (spellable_ofElse whenFalse falseFormed)).symbol
          .rightParen)).symbol .leftParen).keyword .ifWord
  | .whileLoop condition body, ⟨conditionFormed, bodyFormed, _⟩ =>
      (((condition.spellable conditionFormed).append
        ((body.spellable bodyFormed).symbol .rightParen)).symbol .leftParen).keyword .whileWord
  | .forLoop first condition increment body,
      ⟨firstFormed, conditionFormed, incrementFormed, bodyFormed, _⟩ =>
      (((spellable_ofForInitializer first firstFormed).append
        ((Expr.spellable_ofExpr? condition conditionFormed).append
          (((Expr.spellable_ofExpr? increment incrementFormed).append
            ((body.spellable bodyFormed).symbol .rightParen)).symbol .semicolon))).symbol
        .leftParen).keyword .forWord
  | .function target names body, ⟨_, bodyFormed⟩ =>
      ((((spellable_ofNames names).append
        ((((spellable_ofStmts body bodyFormed).append (Spellable.nil.symbol .rightBrace)).symbol
          .leftBrace).symbol .rightParen)).symbol .leftParen).name target).keyword .funWord
  | .giveBack line value, wellFormed =>
      ((Expr.spellable_ofExpr? value wellFormed).append (Spellable.nil.symbol .semicolon)).keywordAt
        .returnWord line

theorem spellable_ofStmts : ∀ body : List Stmt, AllWellFormed body → Spellable (ofStmts body)
  | [], _ => .nil
  | first :: rest, ⟨wellFormed, restFormed⟩ =>
      (first.spellable wellFormed).append (spellable_ofStmts rest restFormed)

theorem spellable_ofElse : ∀ other : Option Stmt, BranchWellFormed other → Spellable (ofElse other)
  | none, _ => .nil
  | some other, ⟨wellFormed, _⟩ => (other.spellable wellFormed).keyword .elseWord

end

end Stmt

end ScopedScript

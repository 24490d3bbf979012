import ScopedScript.Proofs.Grammar.Operators
namespace ScopedScript

/-!
# Tokens that show marks, and trees without their lines

To read a written tree back, the lines of the tokens do not matter: tokens show marks when they have the
same glyphs in the same order.  What comes back is the tree up to what glyphs do not tell, which are the
lines and the identities.  `bare` forgets both, so two trees are alike when they are the same once bare.
-/

/-- The tokens have the glyphs of the marks, on whatever lines. -/
def Shows (marks : List Mark) (tokens : List Token) : Prop :=
  tokens.map (fun token => token.kind.glyph) = marks.map Mark.glyph

namespace Shows

variable {mark : Mark} {marks others : List Mark} {tokens : List Token}

/-- Tokens that fit marks show them. -/
theorem of_fits (fit : List.Forall₂ Mark.Fits marks tokens) : Shows marks tokens := by
  induction fit with
  | nil => rfl
  | cons fits _ inductionHypothesis => exact congrArg₂ List.cons fits.1 inductionHypothesis

theorem eq_nil (shown : Shows [] tokens) : tokens = [] :=
  List.map_eq_nil_iff.mp shown

/-- Tokens that show marks in two parts come in two parts. -/
theorem split (shown : Shows (marks ++ others) tokens) :
    ∃ before after, tokens = before ++ after ∧ Shows marks before ∧ Shows others after := by
  unfold Shows at shown
  rw [List.map_append] at shown
  rcases List.map_eq_append_iff.mp shown with ⟨before, after, same, left, right⟩
  exact ⟨before, after, same, left, right⟩

theorem uncons (shown : Shows (mark :: marks) tokens) :
    ∃ token rest, tokens = token :: rest ∧ token.kind.glyph = mark.glyph ∧ Shows marks rest := by
  cases tokens with
  | nil => cases shown
  | cons token rest =>
      have heads := List.cons.inj shown
      exact ⟨token, rest, rfl, heads.1, heads.2⟩

/-- Only a symbol shows the mark of a symbol. -/
theorem symbol {s : Symbol} (is : mark.glyph = .symbol s) (shown : Shows (mark :: marks) tokens) :
    ∃ line rest, tokens = ⟨.symbol s, line⟩ :: rest ∧ Shows marks rest := by
  rcases shown.uncons with ⟨⟨kind, line⟩, rest, same, glyph, more⟩
  rw [is] at glyph
  cases kind <;> cases glyph
  exact ⟨line, rest, same, more⟩

/-- Only a reserved word shows the mark of a reserved word. -/
theorem keyword {k : Keyword} (is : mark.glyph = .keyword k) (shown : Shows (mark :: marks) tokens) :
    ∃ line rest, tokens = ⟨.keyword k, line⟩ :: rest ∧ Shows marks rest := by
  rcases shown.uncons with ⟨⟨kind, line⟩, rest, same, glyph, more⟩
  rw [is] at glyph
  cases kind <;> cases glyph
  exact ⟨line, rest, same, more⟩

/-- Only a name shows the mark of a name. -/
theorem name {target : Identifier} (shown : Shows (.name target :: marks) tokens) :
    ∃ line rest, tokens = ⟨.identifier target.name, line⟩ :: rest ∧ Shows marks rest := by
  rcases shown.uncons with ⟨⟨kind, line⟩, rest, same, glyph, more⟩
  cases kind <;> cases glyph
  exact ⟨line, rest, same, more⟩

end Shows

namespace Identifier

/-- A name without its line. -/
def bare (target : Identifier) : Identifier := ⟨target.name, 0⟩

end Identifier

namespace Expr

mutual

/-- An expression without lines and identities. -/
def bare : Expr → Expr
  | .constant value => .constant value
  | .group inner => .group inner.bare
  | .unary op _ operand => .unary op 0 operand.bare
  | .binary op _ left right => .binary op 0 left.bare right.bare
  | .logical op left right => .logical op left.bare right.bare
  | .variable _ target => .variable 0 target.bare
  | .assign _ target value => .assign 0 target.bare value.bare
  | .call callee _ arguments => .call callee.bare 0 (bareAll arguments)

/-- Expressions without lines and identities. -/
def bareAll : List Expr → List Expr
  | [] => []
  | first :: rest => first.bare :: bareAll rest

end

/-- An expression that may be absent, without lines and identities. -/
def bare? : Option Expr → Option Expr
  | none => none
  | some e => some e.bare

end Expr

namespace Stmt

mutual

/-- A statement without lines and identities. -/
def bare : Stmt → Stmt
  | .expression value => .expression value.bare
  | .print _ values => .print 0 (Expr.bareAll values)
  | .declare target initializer => .declare target.bare (Expr.bare? initializer)
  | .block body => .block (bareAll body)
  | .branch condition whenTrue whenFalse =>
    .branch condition.bare whenTrue.bare (bare? whenFalse)
  | .whileLoop condition body => .whileLoop condition.bare body.bare
  | .forLoop initializer condition increment body =>
    .forLoop (bare? initializer) (Expr.bare? condition) (Expr.bare? increment) body.bare
  | .function target parameters body =>
    .function target.bare (parameters.map Identifier.bare) (bareAll body)
  | .giveBack _ value => .giveBack 0 (Expr.bare? value)

/-- Statements without lines and identities. -/
def bareAll : List Stmt → List Stmt
  | [] => []
  | first :: rest => first.bare :: bareAll rest

/-- A statement that may be absent, without lines and identities. -/
def bare? : Option Stmt → Option Stmt
  | none => none
  | some s => some s.bare

end

end Stmt

namespace Connective

theorem bare_apply (connective : Connective) (line : Nat) (left right : Expr) :
    (connective.apply line left right).bare = connective.apply 0 left.bare right.bare := by
  cases connective <;> rfl

end Connective

/-! ## How texts of expressions and statements begin -/

namespace Glyph

/-- Whether an expression may begin so. -/
def startsExpr : Glyph → Bool
  | .name _ | .literal _ => true
  | .keyword .trueWord | .keyword .falseWord | .keyword .nilWord => true
  | .symbol .leftParen | .symbol .minus | .symbol .bang => true
  | _ => false

/-- Whether a statement that declares nothing may begin so. -/
def startsStmt : Glyph → Bool
  | .keyword .forWord | .keyword .ifWord | .keyword .whileWord | .keyword .returnWord
  | .keyword .printWord | .symbol .leftBrace => true
  | glyph => glyph.startsExpr

/-- Whether a declaration may begin so. -/
def startsDeclaration : Glyph → Bool
  | .keyword .funWord | .keyword .varWord => true
  | glyph => glyph.startsStmt

end Glyph

namespace Spelling

/-- An expression begins as an expression may. -/
theorem ofExpr_starts (e : Expr) :
    ∃ mark rest, ofExpr e = mark :: rest ∧ mark.glyph.startsExpr = true := by
  match e with
  | .constant value =>
      refine ⟨_, _, rfl, ?_⟩
      cases value with
      | truth value => cases value <;> rfl
      | _ => rfl
  | .group inner => exact ⟨_, _, rfl, rfl⟩
  | .unary op line operand => exact ⟨_, _, rfl, by cases op <;> rfl⟩
  | .binary op line left right =>
      rcases ofExpr_starts left with ⟨mark, rest, same, starts⟩
      exact ⟨mark, _, by rw [ofExpr, same, List.cons_append], starts⟩
  | .logical op left right =>
      rcases ofExpr_starts left with ⟨mark, rest, same, starts⟩
      exact ⟨mark, _, by rw [ofExpr, same, List.cons_append], starts⟩
  | .variable ref target => exact ⟨_, _, rfl, rfl⟩
  | .assign ref target value => exact ⟨_, _, rfl, rfl⟩
  | .call callee line arguments =>
      rcases ofExpr_starts callee with ⟨mark, rest, same, starts⟩
      exact ⟨mark, _, by rw [ofExpr, same, List.cons_append], starts⟩

/-- A statement that declares nothing begins as one may. -/
theorem ofStmt_starts (s : Stmt) (declaresNothing : s.declares = false) :
    ∃ mark rest, ofStmt s = mark :: rest ∧ mark.glyph.startsStmt = true := by
  cases s with
  | expression value =>
      rcases ofExpr_starts value with ⟨mark, rest, same, starts⟩
      refine ⟨mark, _, by rw [ofStmt, same, List.cons_append], ?_⟩
      unfold Glyph.startsStmt
      split <;> first | rfl | exact starts
  | declare target value => cases declaresNothing
  | function target parameters body => cases declaresNothing
  | _ => exact ⟨_, _, rfl, rfl⟩

/-- Everything in a list of statements begins as a declaration may. -/
theorem ofStmt_startsDeclaration (s : Stmt) :
    ∃ mark rest, ofStmt s = mark :: rest ∧ mark.glyph.startsDeclaration = true := by
  cases declares : s.declares with
  | false =>
      rcases ofStmt_starts s declares with ⟨mark, rest, same, starts⟩
      refine ⟨mark, rest, same, ?_⟩
      unfold Glyph.startsDeclaration
      split <;> first | rfl | exact starts
  | true =>
      cases s with
      | declare target value => exact ⟨_, _, rfl, rfl⟩
      | function target parameters body => exact ⟨_, _, rfl, rfl⟩
      | _ => cases declares

end Spelling

namespace Shows

variable {more : List Mark} {tokens : List Token}

/-- Tokens that show an expression begin as one may. -/
theorem startsExpr {e : Expr} (shown : Shows (Spelling.ofExpr e) tokens) :
    ∃ token rest, tokens = token :: rest ∧ token.kind.glyph.startsExpr = true := by
  rcases Spelling.ofExpr_starts e with ⟨mark, marks, same, starts⟩
  rw [same] at shown
  rcases shown.uncons with ⟨token, rest, split, glyph, _⟩
  exact ⟨token, rest, split, by rw [glyph]; exact starts⟩

/-- Tokens that show a statement begin as one may. -/
theorem startsStmt {s : Stmt} (declaresNothing : s.declares = false)
    (shown : Shows (Spelling.ofStmt s) tokens) :
    ∃ token rest, tokens = token :: rest ∧ token.kind.glyph.startsStmt = true := by
  rcases Spelling.ofStmt_starts s declaresNothing with ⟨mark, marks, same, starts⟩
  rw [same] at shown
  rcases shown.uncons with ⟨token, rest, split, glyph, _⟩
  exact ⟨token, rest, split, by rw [glyph]; exact starts⟩

/-- Tokens that show something in a list of statements begin as a declaration may. -/
theorem startsDeclaration {s : Stmt} (shown : Shows (Spelling.ofStmt s) tokens) :
    ∃ token rest, tokens = token :: rest ∧ token.kind.glyph.startsDeclaration = true := by
  rcases Spelling.ofStmt_startsDeclaration s with ⟨mark, marks, same, starts⟩
  rw [same] at shown
  rcases shown.uncons with ⟨token, rest, split, glyph, _⟩
  exact ⟨token, rest, split, by rw [glyph]; exact starts⟩

end Shows

end ScopedScript

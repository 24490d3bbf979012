import ScopedScript.Proofs.Grammar.Showing
import ScopedScript.Proofs.Recognition.Lookahead
namespace ScopedScript

/-!
# How words begin

The parser chooses between rules by the next token.  It chooses right because the words of different phrases begin
differently.
-/

/-- Kinds of tokens that are divided in two. -/
theorem kinds_eq_append {tokens : List Token} {first second : Word} (same : kinds tokens = first ++ second) :
    ∃ front back, tokens = front ++ back ∧ kinds front = first ∧ kinds back = second := by
  rcases List.map_eq_append_iff.mp same with ⟨front, back, rfl, rfl, rfl⟩
  exact ⟨front, back, rfl, rfl, rfl⟩

theorem kinds_eq_cons {tokens : List Token} {kind : TokenKind} {word : Word} (same : kinds tokens = kind :: word) :
    ∃ line behind, tokens = ⟨kind, line⟩ :: behind ∧ kinds behind = word := by
  rcases List.map_eq_cons_iff.mp same with ⟨⟨_, line⟩, behind, rfl, rfl, rfl⟩
  exact ⟨line, behind, rfl, rfl⟩

/-! ## How a word may begin -/

namespace Phrase

/-- Whether a word of the phrase may begin so. -/
def mayBegin : Phrase → Glyph → Bool
  | expression, glyph | operation _, glyph | unary, glyph | call, glyph | primary, glyph | arguments, glyph
  | expressionStatement, glyph => glyph.startsExpr
  | statement, glyph | block, glyph => glyph.startsStmt
  | declaration, glyph | variableDeclaration, glyph => glyph.startsDeclaration
  | _, _ => true

/-- Whether there is a word of the phrase without any token. -/
def mayBeEmpty : Phrase → Bool
  | declarations | parameters? | expression? | arguments? => true
  | _ => false

end Phrase

/-- How the words of a phrase may begin. -/
def Phrase.Begins (phrase : Phrase) (word : Word) : Prop :=
  phrase.mayBeEmpty = false → ∃ kind rest, word = kind :: rest ∧ phrase.mayBegin kind.glyph = true

theorem Phrase.Begins.append {phrase other : Phrase} {word : Word} (begins : phrase.Begins word) (rest : Word)
    (nonempty : phrase.mayBeEmpty = false)
    (wider : ∀ glyph, phrase.mayBegin glyph = true → other.mayBegin glyph = true) :
    other.Begins (word ++ rest) := by
  intro _
  rcases begins nonempty with ⟨kind, behind, rfl, starts⟩
  exact ⟨kind, behind ++ rest, rfl, wider _ starts⟩

theorem Glyph.startsStmt_of_startsExpr {glyph : Glyph} (starts : glyph.startsExpr = true) :
    glyph.startsStmt = true := by
  cases glyph with
  | keyword k => cases k <;> first | rfl | cases starts
  | symbol s => cases s <;> first | rfl | cases starts
  | _ => rfl

theorem Glyph.startsDeclaration_of_startsStmt {glyph : Glyph} (starts : glyph.startsStmt = true) :
    glyph.startsDeclaration = true := by
  cases glyph with
  | keyword k => cases k <;> first | rfl | cases starts
  | symbol s => cases s <;> first | rfl | cases starts
  | _ => rfl

namespace Derives

/-- A word begins as its phrase allows. -/
theorem begins {phrase : Phrase} {word : Word} (derived : Derives phrase word) : phrase.Begins word := by
  induction derived with
  | noDeclarations | moreDeclarations | noParameters | someParameters | noExpression | someExpression
  | noArguments | someArguments => exact fun nonempty => nomatch nonempty
  | function | blank | initialized | print | whileLoop | forLoop | branch | branches | giveBack | startsBlank
  | braces | lastParameter | moreParameters | group => exact fun _ => ⟨_, _, rfl, rfl⟩
  | ofVariable _ inductionHypothesis | ofBlock _ inductionHypothesis | ofOperation _ inductionHypothesis
  | ofOperand _ _ inductionHypothesis | ofUnary _ inductionHypothesis | ofCall _ inductionHypothesis
  | ofPrimary _ inductionHypothesis | lastArgument _ inductionHypothesis => exact inductionHypothesis
  | ofStatement _ inductionHypothesis =>
      intro _
      rcases inductionHypothesis rfl with ⟨kind, rest, same, starts⟩
      exact ⟨kind, rest, same, Glyph.startsDeclaration_of_startsStmt starts⟩
  | ofExpression _ inductionHypothesis =>
      intro _
      rcases inductionHypothesis rfl with ⟨kind, rest, same, starts⟩
      exact ⟨kind, rest, same, Glyph.startsStmt_of_startsExpr starts⟩
  | startsDeclaring _ inductionHypothesis | startsEvaluating _ inductionHypothesis =>
      intro _
      rcases inductionHypothesis rfl with ⟨kind, rest, same, starts⟩
      exact ⟨kind, rest, same, rfl⟩
  | evaluated _ inductionHypothesis | assignment _ _ inductionHypothesis _ | operate _ _ _ inductionHypothesis _
  | apply _ _ inductionHypothesis _ | moreArguments _ _ inductionHypothesis _ =>
      exact inductionHypothesis.append _ rfl fun _ starts => starts
  | @signed sign operand listed _ _ =>
      refine fun _ => ⟨sign, operand, rfl, ?_⟩
      rcases List.mem_cons.mp listed with rfl | listed
      · rfl
      · rcases List.mem_singleton.mp listed with rfl
        rfl
  | @atom kind isAtom =>
      refine fun _ => ⟨kind, [], rfl, ?_⟩
      cases kind with
      | symbol _ => cases isAtom
      | keyword k => cases k <;> first | rfl | cases isAtom
      | _ => rfl

end Derives

end ScopedScript

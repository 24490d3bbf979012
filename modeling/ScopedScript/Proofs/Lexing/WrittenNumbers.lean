import ScopedScript.Number.Format
import ScopedScript.Proofs.Lexing.Layout
namespace ScopedScript

/-!
# The tokens of a written number

A numeral that stands alone is one token.  Behind a minus sign and in front of a semicolon it is one token
too: the sign takes nothing of the digits with it, and the semicolon ends them.
-/

namespace Lexer

variable {numeral : List Char} {q : ℚ}

/-- The sign of a number does not go on with what stands behind it. -/
theorem longest_minus (rest : List Char) : Longest (.token (.symbol .minus)) ['-'] rest := by
  have form : Piece.Form (.token (.symbol .minus)) ['-'] := .symbol .minus
  refine ⟨form, fun {other beginning more} longer parts => ?_⟩
  obtain ⟨first, others, rfl⟩ := longer.exists_cons
  obtain ⟨rfl, -⟩ := List.cons.inj parts
  rcases longer.of_mark (by decide) (by decide) (by decide) with
    ⟨s, -, text⟩ | ⟨_, -, -, isSlash, -⟩ | ⟨_, -, isQuote, -⟩
  · cases s with
    | minus => exact (congrArg List.length text).ge
    | _ => simp [Symbol.text] at text
  · exact absurd isSlash (by decide)
  · exact absurd isQuote (by decide)

/-- A semicolon ends a numeral. -/
theorem longest_numeral (digits : Numeral numeral q) (rest : List Char) :
    Longest (.token (.number (String.ofList numeral))) numeral (';' :: rest) := by
  have form := Piece.Form.number digits
  refine form.longest_before (by decide) (fun another goesOn => ?_) rest
  rcases goesOn.last form.ne_nil with ⟨body, comment, -⟩ | isPart | isMark
  · obtain ⟨first, others, rfl⟩ := form.exists_cons
    obtain ⟨rfl, -⟩ := List.cons.inj comment
    exact absurd (numeral_reaches digits []).1 (by decide)
  · exact absurd isPart (by decide)
  · exact absurd isMark (by decide)

/-- No line ends inside of a numeral. -/
theorem count_newline_numeral (digits : Numeral numeral q) : numeral.count '\n' = 0 := by
  refine List.count_eq_zero.mpr fun inside => ?_
  rcases isDigit_or_point_of_numeral digits inside with isDigit | isPoint
  · exact absurd isDigit (by decide)
  · exact absurd isPoint (by decide)

end Lexer

open Lexer

/-- The tokens that a text is read as on its first line. -/
theorem tokenize_of_lexes {text : List Char} {tokens : List Token} {last : Nat}
    (lexes : Lexes 1 text (tokens.map .token ++ [.finish last])) :
    tokenize (String.ofList text) = .ok ⟨tokens, last⟩ := by
  rw [← String.toList_ofList (l := text), lexes_iff_scan] at lexes
  rw [tokenize, ← lexes]
  exact gatherTokens_map [] tokens last

section Written

variable {numeral : List Char} {q : ℚ}

/-- A numeral alone is one token. -/
theorem tokenize_numeral (digits : Numeral numeral q) :
    tokenize (String.ofList numeral) = .ok ⟨[⟨.number (String.ofList numeral), 1⟩], 1⟩ := by
  have form := Piece.Form.number digits
  have lexes := @Lexes.token 1 _ _ _ _ form.longest_whole (hasLiteral_of_form form) .finish
  rw [count_newline_numeral digits, List.append_nil] at lexes
  exact tokenize_of_lexes lexes

/-- The token of a minus sign, where there is one. -/
def signTokens (negative : Bool) : List Token := if negative then [⟨.symbol .minus, 1⟩] else []

/-- A numeral between a sign and a semicolon is one token. -/
theorem tokenize_numeral_statement (negative : Bool) (digits : Numeral numeral q) :
    tokenize (String.ofList (NumberFormat.signed negative numeral ++ [';'])) =
      .ok ⟨signTokens negative ++ [⟨.number (String.ofList numeral), 1⟩, ⟨.symbol .semicolon, 1⟩], 1⟩ := by
  have semicolon : Piece.Form (.token (.symbol .semicolon)) [';'] := .symbol .semicolon
  have form := Piece.Form.number digits
  have ending : Lexes 1 [';'] [.token ⟨.symbol .semicolon, 1⟩, .finish 1] :=
    .token semicolon.longest_whole (hasLiteral_of_form semicolon) .finish
  rw [← Nat.add_zero 1, ← count_newline_numeral digits] at ending
  have lexes := Lexes.token (longest_numeral digits []) (hasLiteral_of_form form) ending
  rw [count_newline_numeral digits] at lexes
  cases negative with
  | false => exact tokenize_of_lexes lexes
  | true => exact tokenize_of_lexes (.token (longest_minus _) (.symbol .minus) lexes)

end Written

end ScopedScript

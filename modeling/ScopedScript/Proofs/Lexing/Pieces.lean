import Mathlib.Data.List.TakeWhile
import ScopedScript.Proofs.Lexing.Cuts
namespace ScopedScript

/-!
# A text as the pieces that it is cut into

`pieces` lists what a text is cut into, each piece with its characters, and `items` counts the lines afterwards.

`Piece.Takes` says which characters make up a piece, and what must stand behind them.  That matters for
two pieces only: a comment goes on up to the end of its line, and a string without a closing quote up to
the end of the text.
-/

namespace Lexer

/-- The pieces of a text in order, each with its characters. -/
def pieces : List Char → List (Piece × List Char)
  | [] => []
  | first :: rest =>
    let next := cut first rest
    (next.piece, first :: rest.take next.extra) :: pieces (rest.drop next.extra)
termination_by text => text.length
decreasing_by simp only [List.length_cons, List.length_drop]; omega

/-- The items that pieces yield from the given line on. -/
def items (line : Nat) : List (Piece × List Char) → List ScanItem
  | [] => [.finish line]
  | (piece, text) :: rest =>
    (piece.item? (line + newlines text)).toList ++ items (line + newlines text) rest

/-- No character is lost, and none is read twice. -/
theorem flatMap_pieces (text : List Char) : (pieces text).flatMap Prod.snd = text := by
  fun_induction pieces text with
  | case1 => rfl
  | case2 first rest next inductionHypothesis =>
      rw [List.flatMap_cons, inductionHypothesis, List.cons_append, List.take_append_drop]

theorem newlines_append (text more : List Char) :
    newlines (text ++ more) = newlines text + newlines more :=
  List.count_append

/-! ## What the characters of a piece are -/

/-- A piece is made up of these characters where others stand behind them. -/
inductive Piece.Takes : Piece → List Char → List Char → Prop where
  | blank {c : Char} {behind : List Char} (isBlank : isBlank c = true) : Takes gap [c] behind
  | comment {body behind : List Char} (oneLine : '\n' ∉ body)
      (whole : ∀ c ∈ behind.head?, c = '\n') : Takes gap ('/' :: '/' :: body) behind
  | token (kind : TokenKind) (behind : List Char) : Takes (token kind) kind.lexeme.toList behind
  | unexpected (c : Char) (behind : List Char) : Takes (fault (.unexpected c)) [c] behind
  | unterminated {body : List Char} (isOpen : '"' ∉ body) :
      Takes (fault .unterminated) ('"' :: body) []

/-- A cut takes the characters of its piece and leaves the others. -/
def Cut.Fits (next : Cut) (first : Char) (rest : List Char) : Prop :=
  next.piece.Takes (first :: rest.take next.extra) (rest.drop next.extra)

theorem Cut.Fits.of_split {piece : Piece} {first : Char} {front behind : List Char}
    (takes : piece.Takes (first :: front) behind) :
    Cut.Fits ⟨piece, front.length⟩ first (front ++ behind) := by
  unfold Cut.Fits
  dsimp only
  rw [List.take_left, List.drop_left]
  exact takes

/-- A cut that takes one character only. -/
theorem Cut.Fits.single {piece : Piece} {first : Char} {rest : List Char}
    (takes : piece.Takes [first] rest) : Cut.Fits ⟨piece, 0⟩ first rest :=
  Cut.Fits.of_split takes

theorem lexeme_ofWord (word : String) : (TokenKind.ofWord word).lexeme = word := by
  unfold TokenKind.ofWord
  cases found : Keyword.ofText? word with
  | none => rfl
  | some keyword =>
      have spelled := List.find?_some found
      exact beq_iff_eq.mp spelled

/-- What a fraction takes stands in front of what it leaves. -/
theorem Cut.fraction_leads (text : List Char) : Cut.fraction text <+: text := by
  fun_cases Cut.fraction text with
  | case1 digit rest isDigit =>
      exact (List.prefix_append_right_inj ['.', digit]).mpr (List.takeWhile_prefix _)
  | case2 => exact List.nil_prefix
  | case3 => exact List.nil_prefix

theorem symbol_fits {s : Symbol} {first : Char} (spelled : s.text = String.singleton first)
    (rest : List Char) : (Cut.symbol s).Fits first rest := by
  apply Cut.Fits.single
  have takes := Piece.Takes.token (.symbol s) rest
  rwa [TokenKind.lexeme, spelled, String.toList_singleton] at takes

theorem operator_fits {plain withEqual : Symbol} {first : Char}
    (short : plain.text = String.singleton first)
    (long : withEqual.text.toList = [first, '=']) (rest : List Char) :
    (Cut.operator plain withEqual rest).Fits first rest := by
  fun_cases Cut.operator plain withEqual rest with
  | case1 rest =>
      have takes := Piece.Takes.token (.symbol withEqual) rest
      rw [TokenKind.lexeme, long] at takes
      exact Cut.Fits.of_split takes
  | case2 => exact symbol_fits short rest

theorem slashOrComment_fits (rest : List Char) : (Cut.slashOrComment rest).Fits '/' rest := by
  fun_cases Cut.slashOrComment rest with
  | case1 rest =>
      have body : '\n' ∉ rest.takeWhile (· ≠ '\n') := fun inside => by
        simpa using List.mem_takeWhile_imp inside
      have whole : ∀ c ∈ (rest.dropWhile (· ≠ '\n')).head?, c = '\n' := by
        intro c atHead
        have stops := List.head?_dropWhile_not (· ≠ '\n') rest
        rw [Option.mem_def.mp atHead] at stops
        simpa using stops
      have fits := Cut.Fits.of_split (Piece.Takes.comment body whole)
      rwa [List.cons_append, List.takeWhile_append_dropWhile, List.length_cons, Nat.add_comm] at fits
  | case2 => exact symbol_fits rfl rest

theorem toList_lexeme_string (body : List Char) :
    (TokenKind.string (String.ofList body)).lexeme.toList = '"' :: (body ++ ['"']) := by
  simp [TokenKind.lexeme]

theorem string_fits (rest : List Char) : (Cut.string rest).Fits '"' rest := by
  have body : '"' ∉ rest.takeWhile (· ≠ '"') := fun inside => by
    simpa using List.mem_takeWhile_imp inside
  have parts := @List.takeWhile_append_dropWhile _ (· ≠ '"') rest
  simp only [Cut.string]
  split
  next allTaken =>
    have isOpen := List.IsPrefix.eq_of_length (List.takeWhile_prefix _) allTaken
    rw [isOpen] at body
    have fits := Cut.Fits.of_split (Piece.Takes.unterminated body)
    rwa [List.append_nil] at fits
  next someLeft =>
    cases behind : rest.dropWhile (· ≠ '"') with
    | nil =>
        rw [behind, List.append_nil] at parts
        exact absurd (congrArg List.length parts) someLeft
    | cons quote more =>
        have closing := List.head?_dropWhile_not (· ≠ '"') rest
        rw [behind] at closing
        have isQuote : quote = '"' := by simpa using closing
        subst isQuote
        generalize rest.takeWhile (· ≠ '"') = inside at parts ⊢
        have takes := Piece.Takes.token (.string (String.ofList inside)) more
        rw [toList_lexeme_string] at takes
        have fits := Cut.Fits.of_split takes
        rwa [List.append_assoc, List.singleton_append, ← behind, parts, List.length_append] at fits

theorem number_fits (first : Char) (rest : List Char) : (Cut.number first rest).Fits first rest := by
  obtain ⟨behind, afterFraction⟩ := Cut.fraction_leads (rest.dropWhile Char.isDigit)
  have takes := Piece.Takes.token (.number (String.ofList (first ::
    (rest.takeWhile Char.isDigit ++ Cut.fraction (rest.dropWhile Char.isDigit))))) behind
  rw [TokenKind.lexeme, String.toList_ofList] at takes
  have fits := Cut.Fits.of_split takes
  rwa [List.append_assoc, afterFraction, List.takeWhile_append_dropWhile] at fits

theorem word_fits (first : Char) (rest : List Char) : (Cut.word first rest).Fits first rest := by
  have takes := Piece.Takes.token (.ofWord (String.ofList (first :: rest.takeWhile isWordPart)))
    (rest.dropWhile isWordPart)
  rw [lexeme_ofWord, String.toList_ofList] at takes
  have fits := Cut.Fits.of_split takes
  rwa [List.takeWhile_append_dropWhile] at fits

/-- Whatever a text begins with, its first piece takes characters of that piece. -/
theorem cut_fits (first : Char) (rest : List Char) : (cut first rest).Fits first rest := by
  unfold cut
  split
  next blank => exact Cut.Fits.single (.blank blank)
  split
  next => exact number_fits first rest
  split
  next => exact word_fits first rest
  split
  all_goals first
    | exact symbol_fits rfl rest
    | exact operator_fits rfl rfl rest
    | exact slashOrComment_fits rest
    | exact string_fits rest
    | exact Cut.Fits.single (.unexpected first rest)

end Lexer

end ScopedScript

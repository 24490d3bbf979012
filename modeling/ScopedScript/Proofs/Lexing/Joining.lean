import ScopedScript.Proofs.Lexing.Coverage
import ScopedScript.Proofs.Relabeling.Trees
namespace ScopedScript

/-!
# Texts that are joined by a newline

No piece reaches over a newline, except a string; and a string that is closed in front of it stays the
same.  So a text of tokens can be followed by a newline and another text: the tokens of both come out, those
of the second one on lines further down.
-/

namespace Lexer

variable {c : Char} {text more : List Char}

/-! ## Nothing reaches over a newline -/

theorem takeWhile_before (p : Char → Bool) (stops : p c = false) (text more : List Char) :
    (text ++ c :: more).takeWhile p = text.takeWhile p := by
  rw [List.takeWhile_append, List.takeWhile_cons, stops]
  split
  · rename_i whole
    exact (List.append_nil text).trans ((List.takeWhile_prefix p).eq_of_length whole).symm
  · rfl

theorem dropWhile_before (p : Char → Bool) (stops : p c = false) (text more : List Char) :
    (text ++ c :: more).dropWhile p = text.dropWhile p ++ c :: more := by
  rw [List.dropWhile_append, List.dropWhile_cons, stops]
  split
  · rename_i nothing
    rw [List.isEmpty_iff.mp nothing]
    rfl
  · rfl

theorem fraction_before (text more : List Char) :
    Cut.fraction (text ++ '\n' :: more) = Cut.fraction text := by
  fun_cases Cut.fraction text with
  | case1 digit rest isDigit =>
      have one : Cut.fraction ('.' :: digit :: (rest ++ '\n' :: more)) =
          '.' :: digit :: (rest ++ '\n' :: more).takeWhile Char.isDigit := if_pos isDigit
      rw [List.cons_append, List.cons_append, one, takeWhile_before Char.isDigit rfl]
  | case2 digit rest noDigit => exact if_neg noDigit
  | case3 _ noFraction =>
      rcases text with _ | ⟨first, _ | ⟨second, rest⟩⟩
      · rfl
      · by_cases isPoint : first = '.'
        · subst isPoint
          rfl
        · refine Cut.fraction.eq_2 _ fun digit behind same => ?_
          cases same
          exact isPoint rfl
      · refine Cut.fraction.eq_2 _ fun digit behind same => ?_
        cases same
        exact noFraction second rest rfl

theorem number_before (first : Char) (text more : List Char) :
    Cut.number first (text ++ '\n' :: more) = Cut.number first text := by
  unfold Cut.number
  rw [takeWhile_before Char.isDigit rfl, dropWhile_before Char.isDigit rfl, fraction_before]

theorem word_before (first : Char) (text more : List Char) :
    Cut.word first (text ++ '\n' :: more) = Cut.word first text := by
  unfold Cut.word
  rw [takeWhile_before isWordPart rfl]

theorem operator_before (plain withEqual : Symbol) (text more : List Char) :
    Cut.operator plain withEqual (text ++ '\n' :: more) = Cut.operator plain withEqual text := by
  fun_cases Cut.operator plain withEqual text with
  | case1 rest => rfl
  | case2 _ noEqual =>
      cases text with
      | nil => rfl
      | cons first rest =>
          refine Cut.operator.eq_2 _ _ _ fun behind same => ?_
          cases same
          exact noEqual rest rfl

theorem slashOrComment_before (text more : List Char) :
    Cut.slashOrComment (text ++ '\n' :: more) = Cut.slashOrComment text := by
  fun_cases Cut.slashOrComment text with
  | case1 rest =>
      change Cut.mk _ (1 + ((rest ++ '\n' :: more).takeWhile (· ≠ '\n')).length) = _
      rw [takeWhile_before (· ≠ '\n') rfl]
  | case2 _ noSlash =>
      cases text with
      | nil => rfl
      | cons first rest =>
          refine Cut.slashOrComment.eq_2 _ fun behind same => ?_
          cases same
          exact noSlash rest rfl

theorem string_before (closed : (Cut.string text).piece ≠ .fault .unterminated) :
    Cut.string (text ++ '\n' :: more) = Cut.string text := by
  unfold Cut.string at closed ⊢
  dsimp only at closed ⊢
  split at closed
  · contradiction
  · rename_i partly
    rw [List.takeWhile_append, if_neg partly, if_neg partly, if_neg]
    have most := (List.takeWhile_prefix (l := text) (· ≠ '"')).length_le
    rw [List.length_append, List.length_cons]
    omega

/-- Where no string is left open, a newline and more behind it change no piece in front. -/
theorem cut_before {first : Char} (closed : (cut first text).piece ≠ .fault .unterminated) :
    cut first (text ++ '\n' :: more) = cut first text := by
  unfold cut at closed ⊢
  split
  · rfl
  rename_i noBlank
  rw [if_neg noBlank] at closed
  split
  · exact number_before first text more
  rename_i noDigit
  rw [if_neg noDigit] at closed
  split
  · exact word_before first text more
  rename_i noWord
  rw [if_neg noWord] at closed
  split
  all_goals first
    | rfl
    | exact operator_before _ _ text more
    | exact slashOrComment_before text more
    | exact string_before closed

/-! ## No piece is longer than the text -/

theorem extra_number_le (first : Char) (text : List Char) : (Cut.number first text).extra ≤ text.length := by
  have within : text.takeWhile Char.isDigit ++ Cut.fraction (text.dropWhile Char.isDigit) <+:
      text.takeWhile Char.isDigit ++ text.dropWhile Char.isDigit :=
    (List.prefix_append_right_inj _).mpr (Cut.fraction_leads _)
  rw [List.takeWhile_append_dropWhile] at within
  exact within.length_le

theorem extra_operator_le (plain withEqual : Symbol) (text : List Char) :
    (Cut.operator plain withEqual text).extra ≤ text.length := by
  fun_cases Cut.operator plain withEqual text with
  | case1 rest => exact Nat.le_add_left 1 rest.length
  | case2 => exact Nat.zero_le _

theorem extra_slashOrComment_le (text : List Char) : (Cut.slashOrComment text).extra ≤ text.length := by
  fun_cases Cut.slashOrComment text with
  | case1 rest =>
      rw [List.length_cons, Nat.add_comm]
      exact Nat.add_le_add_right (List.takeWhile_prefix _).length_le 1
  | case2 => exact Nat.zero_le _

theorem extra_string_le (text : List Char) : (Cut.string text).extra ≤ text.length := by
  unfold Cut.string
  dsimp only
  split
  · exact Nat.le_refl _
  · rename_i partly
    exact Nat.lt_of_le_of_ne (List.takeWhile_prefix _).length_le partly

theorem extra_cut_le (first : Char) (text : List Char) : (cut first text).extra ≤ text.length := by
  unfold cut
  split
  · exact Nat.zero_le _
  split
  · exact extra_number_le first text
  split
  · exact (List.takeWhile_prefix isWordPart).length_le
  split
  all_goals first
    | exact Nat.zero_le _
    | exact extra_operator_le _ _ text
    | exact extra_slashOrComment_le text
    | exact extra_string_le text

/-! ## The pieces and tokens of both texts -/

/-- The pieces of a text that leaves no string open stay the same in front of a newline. -/
theorem pieces_before (closed : ∀ part ∈ pieces text, part.1 ≠ .fault .unterminated) (more : List Char) :
    pieces (text ++ '\n' :: more) = pieces text ++ (.gap, ['\n']) :: pieces more := by
  fun_induction pieces text with
  | case1 =>
      rw [List.nil_append, pieces]
      rfl
  | case2 first rest next inductionHypothesis =>
      rw [List.forall_mem_cons] at closed
      have same : cut first (rest ++ '\n' :: more) = next := cut_before closed.1
      have short : next.extra ≤ rest.length := extra_cut_le first rest
      rw [List.cons_append, pieces, same, List.take_append_of_le_length short,
        List.drop_append_of_le_length short, inductionHypothesis closed.2, List.cons_append]

variable {line : Nat} {found : List Token} {parts : List (Piece × List Char)} {stream : TokenStream}

/-- What has been gathered without a fault is there when more pieces follow. -/
theorem gathered_before (gathered : gatherTokens found (items line parts) = .ok stream)
    (behind : List (Piece × List Char)) :
    gatherTokens found (items line (parts ++ behind)) =
      gatherTokens stream.tokens.reverse (items stream.endLine behind) := by
  induction parts generalizing line found with
  | nil =>
      cases gathered
      rw [List.reverse_reverse]
      rfl
  | cons part rest inductionHypothesis =>
      rcases part with ⟨piece, text⟩
      cases piece with
      | gap => exact inductionHypothesis gathered
      | token kind => exact inductionHypothesis gathered
      | fault _ => cases gathered

/-- Tokens end on the line to which the newlines of their text lead. -/
theorem endLine_of_gathered (gathered : gatherTokens found (items line parts) = .ok stream) :
    stream.endLine = line + newlines (parts.flatMap Prod.snd) := by
  induction parts generalizing line found with
  | nil =>
      cases gathered
      rfl
  | cons part rest inductionHypothesis =>
      rcases part with ⟨piece, text⟩
      rw [List.flatMap_cons, newlines_append, ← Nat.add_assoc]
      cases piece with
      | gap => exact inductionHypothesis gathered
      | token kind => exact inductionHypothesis gathered
      | fault _ => cases gathered

/-- Where tokens come out, no piece is a fault. -/
theorem faultless_of_gathered (gathered : gatherTokens found (items line parts) = .ok stream)
    (fault : LexicalFault) : ∀ part ∈ parts, part.1 ≠ .fault fault := by
  induction parts generalizing line found with
  | nil => nofun
  | cons part rest inductionHypothesis =>
      rcases part with ⟨piece, text⟩
      cases piece with
      | gap => exact List.forall_mem_cons.mpr ⟨nofun, inductionHypothesis gathered⟩
      | token kind => exact List.forall_mem_cons.mpr ⟨nofun, inductionHypothesis gathered⟩
      | fault _ => cases gathered

/-- On lines further down, and behind other tokens, the same tokens are gathered. -/
theorem gathered_further (gathered : gatherTokens found (items line parts) = .ok stream)
    (earlier : List Token) (shift : Nat) :
    gatherTokens (found.map (Token.relabel (.ofLines (· + shift))) ++ earlier)
        (items (line + shift) parts) =
      .ok ⟨earlier.reverse ++ stream.tokens.map (Token.relabel (.ofLines (· + shift))),
        stream.endLine + shift⟩ := by
  induction parts generalizing line found with
  | nil =>
      cases gathered
      change Except.ok (TokenStream.mk _ _) = _
      rw [List.reverse_append, List.map_reverse]
  | cons part rest inductionHypothesis =>
      rcases part with ⟨piece, text⟩
      have sooner : line + shift + newlines text = line + newlines text + shift := by omega
      rw [items, sooner]
      cases piece with
      | gap => exact inductionHypothesis gathered
      | token kind => exact inductionHypothesis gathered
      | fault _ => cases gathered

end Lexer

open Lexer

/-- Of two texts with a newline between them, the tokens of both come out: those of the second text are on
lines further down, by one and the newlines of the first text. -/
theorem tokenize_joined {first second : String} {firstStream secondStream : TokenStream}
    (firstCut : tokenize first = .ok firstStream) (secondCut : tokenize second = .ok secondStream) :
    let shift := 1 + newlines first.toList
    tokenize (first ++ "\n" ++ second) =
      .ok ⟨firstStream.tokens ++ secondStream.tokens.map (Token.relabel (.ofLines (· + shift))),
        secondStream.endLine + shift⟩ := by
  intro shift
  rw [tokenize, scan_eq] at firstCut secondCut ⊢
  have closed := faultless_of_gathered firstCut .unterminated
  have ends := endLine_of_gathered firstCut
  rw [flatMap_pieces] at ends
  have whole : (first ++ "\n" ++ second).toList = first.toList ++ '\n' :: second.toList := by
    rw [String.toList_append, String.toList_append, List.append_assoc]
    rfl
  have shifted := gathered_further secondCut firstStream.tokens.reverse shift
  rw [List.reverse_reverse] at shifted
  rw [whole, pieces_before closed, gathered_before firstCut, ← shifted, ends]
  change gatherTokens _ (items (1 + newlines first.toList + 1) _) = gatherTokens _ (items (1 + shift) _)
  rw [Nat.add_comm 1 shift]
  rfl

end ScopedScript

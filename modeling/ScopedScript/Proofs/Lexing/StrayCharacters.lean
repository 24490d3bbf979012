import ScopedScript.Proofs.Lexing.Layout
namespace ScopedScript

/-!
# Unexpected characters do not disturb the scan

The scan reports a character that nothing begins with and goes on behind it.  It would do the same behind a
space.  So the text with a space in place of each such character is cut into the same pieces, up to these
places, and yields the same items without their faults.

This has to be shown for each piece in front of such a character, since the pieces look ahead: a space does
not continue any of them but a comment, and a comment would have swallowed the character too.
-/

/-- The fault of an item, with its line. -/
def ScanItem.fault? : ScanItem → Option (LexicalFault × Nat)
  | .fault reason line => some (reason, line)
  | .token _ | .finish _ => none

/-- Whether an item reports an unexpected character. -/
def ScanItem.isUnexpected : ScanItem → Bool
  | .fault (.unexpected _) _ => true
  | _ => false

namespace Lexer

/-- The unexpected characters among pieces, each with its position. -/
def straysFrom (position : Nat) : List (Piece × List Char) → List (Nat × Char)
  | [] => []
  | (.fault (.unexpected c), text) :: rest => (position, c) :: straysFrom (position + text.length) rest
  | (_, text) :: rest => straysFrom (position + text.length) rest

/-- The unexpected characters of a text in order, each with its position. -/
def strays (text : List Char) : List (Nat × Char) := straysFrom 0 (pieces text)

/-- A text that begins at a position, with a space at each of the given positions. -/
def spaced (marks : List Nat) (position : Nat) : List Char → List Char
  | [] => []
  | c :: rest => (if position ∈ marks then ' ' else c) :: spaced marks (position + 1) rest

/-- A text with a space in place of each unexpected character. -/
def blanked (text : List Char) : List Char := spaced ((strays text).map Prod.fst) 0 text

/-- An unexpected character with the line on which it stands. -/
def strayFault (text : List Char) (stray : Nat × Char) : LexicalFault × Nat :=
  (.unexpected stray.2, 1 + newlines (text.take stray.1))

/-! ## Where faults stand -/

/-- An unexpected character is a piece of its own, and behind a string without a closing quote is nothing. -/
inductive FaultsStand : List (Piece × List Char) → Prop where
  | done : FaultsStand []
  | gap {text : List Char} {rest : List (Piece × List Char)} (others : FaultsStand rest) :
      FaultsStand ((.gap, text) :: rest)
  | token {kind : TokenKind} {text : List Char} {rest : List (Piece × List Char)} (others : FaultsStand rest) :
      FaultsStand ((.token kind, text) :: rest)
  | unexpected {c : Char} {rest : List (Piece × List Char)} (oneLine : newlines [c] = 0)
      (others : FaultsStand rest) : FaultsStand ((.fault (.unexpected c), [c]) :: rest)
  | unterminated (text : List Char) : FaultsStand [(.fault .unterminated, text)]

theorem faultsStand_pieces (text : List Char) : FaultsStand (pieces text) := by
  fun_induction pieces text with
  | case1 => exact .done
  | case2 first rest next inductionHypothesis =>
      simp only [next] at inductionHypothesis ⊢
      cases noFault : (cut first rest).piece with
      | gap => exact .gap inductionHypothesis
      | token kind => exact .token inductionHypothesis
      | fault fault =>
          have isFault : (cut first rest).piece.isFault = true := by
            rw [noFault]
            rfl
          rcases cut_fault isFault with ⟨-, same⟩ | ⟨-, same⟩
          · rw [same] at noFault ⊢
            cases noFault
            rw [List.drop_length, pieces]
            exact .unterminated _
          · rw [same] at noFault inductionHypothesis ⊢
            cases noFault
            exact .unexpected (formless_iff.mpr isFault).newlines_head inductionHypothesis

section Strays

variable {parts : List (Piece × List Char)} {position : Nat}

theorem le_of_mem_straysFrom {stray : Nat × Char} (member : stray ∈ straysFrom position parts) :
    position ≤ stray.1 := by
  induction parts generalizing position with
  | nil => cases member
  | cons part rest inductionHypothesis =>
      have further : ∀ length, stray ∈ straysFrom (position + length) rest → position ≤ stray.1 :=
        fun length behind => Nat.le_of_add_right_le (inductionHypothesis behind)
      rcases part with ⟨_ | _ | _ | _, text⟩
      · exact further _ member
      · exact further _ member
      · rcases List.mem_cons.mp member with rfl | behind
        · exact Nat.le_refl _
        · exact further _ behind
      · exact further _ member

theorem pairwise_straysFrom (stand : FaultsStand parts) :
    (straysFrom position parts).Pairwise fun stray later => stray.1 < later.1 := by
  induction stand generalizing position with
  | done | unterminated => exact .nil
  | gap _ inductionHypothesis | token _ inductionHypothesis => exact inductionHypothesis
  | unexpected _ _ inductionHypothesis =>
      exact .cons (fun later behind => le_of_mem_straysFrom behind) inductionHypothesis

/-- At the position of an unexpected character is that character. -/
theorem getElem?_of_mem_straysFrom (stand : FaultsStand parts) {stray : Nat × Char} {front : List Char}
    (member : stray ∈ straysFrom front.length parts) :
    (front ++ parts.flatMap Prod.snd)[stray.1]? = some stray.2 := by
  induction stand generalizing front with
  | done | unterminated => cases member
  | @gap text rest _ inductionHypothesis | @token _ text rest _ inductionHypothesis =>
      have behind : stray ∈ straysFrom (front ++ text).length rest := by
        rw [List.length_append]
        exact member
      have found := inductionHypothesis behind
      rwa [List.append_assoc] at found
  | @unexpected c rest _ _ inductionHypothesis =>
      rcases List.mem_cons.mp member with rfl | behind
      · rw [List.flatMap_cons, List.singleton_append, List.getElem?_append_right (Nat.le_refl _), Nat.sub_self]
        rfl
      · rw [← List.length_append] at behind
        have found := inductionHypothesis behind
        rwa [List.append_assoc] at found

end Strays

/-! ## The text with spaces -/

/-- A piece of the text with spaces in place of the unexpected characters. -/
def cleaned : Piece × List Char → Piece × List Char
  | (.fault (.unexpected _), _) => (.gap, [' '])
  | part => part

theorem cleaned_of_ne {piece : Piece} (noStray : ∀ c, piece ≠ .fault (.unexpected c)) (text : List Char) :
    cleaned (piece, text) = (piece, text) := by
  rcases piece with _ | _ | c | _
  · rfl
  · rfl
  · exact absurd rfl (noStray c)
  · rfl

/-- The last character of a comment could be any other but a newline. -/
theorem comment_of_comment {taken body : List Char} {c d : Char} (comment : taken ++ [c] = '/' :: '/' :: body)
    (oneLine : '\n' ∉ body) (noSlash : c ≠ '/') (noNewline : d ≠ '\n') : Piece.Form .gap (taken ++ [d]) := by
  rcases taken with _ | ⟨first, _ | ⟨second, others⟩⟩
  · cases comment
  · cases comment
    exact absurd rfl noSlash
  · cases comment
    refine .comment fun inside => ?_
    rcases List.mem_append.mp inside with inFront | last
    · exact oneLine (List.mem_append_left _ inFront)
    · exact noNewline (List.mem_singleton.mp last).symm

/-- A longest match is one also in front of the text with spaces. -/
theorem Longest.before_cleaned {piece : Piece} {taken text : List Char} (longest : Longest piece taken text) :
    Longest piece taken ((pieces text).flatMap fun part => (cleaned part).2) := by
  cases text with
  | nil => rwa [pieces]
  | cons c rest =>
      rw [pieces, List.flatMap_cons]
      by_cases stray : ∃ d, (cut c rest).piece = .fault (.unexpected d)
      · obtain ⟨d, same⟩ := stray
        have formless : Formless (c :: rest) := formless_iff.mpr (by rw [same]; rfl)
        have noNewline : c ≠ '\n' := by
          rintro rfl
          exact absurd formless.newlines_head (by decide)
        rw [same]
        refine longest.form.longest_before (by decide) (fun another goesOn => ?_) _
        obtain ⟨body, comment, oneLine⟩ := comment_of_form_snoc goesOn longest.form.ne_nil (by decide)
        exact longest.stops .gap (comment_of_comment comment oneLine (by decide) noNewline)
      · rw [cleaned_of_ne fun d same => stray ⟨d, same⟩]
        refine longest.form.longest_before ?_ longest.stops _
        rintro rfl
        exact stray ⟨'.', rfl⟩

/-- The text with spaces is cut into the same pieces. -/
theorem pieces_cleaned (text : List Char) :
    pieces ((pieces text).flatMap fun part => (cleaned part).2) = (pieces text).map cleaned := by
  fun_induction pieces text with
  | case1 => rw [List.flatMap_nil, pieces, List.map_nil]
  | case2 first rest next inductionHypothesis =>
      rw [List.flatMap_cons, List.map_cons]
      simp only [next] at inductionHypothesis ⊢
      cases noFault : (cut first rest).piece.isFault with
      | false =>
          have longest := (longest_cut noFault).before_cleaned
          have noStray : ∀ c, (cut first rest).piece ≠ .fault (.unexpected c) := by
            intro c same
            rw [same] at noFault
            cases noFault
          rw [cleaned_of_ne noStray, List.cons_append, pieces, longest.cut_eq]
          simp only [List.take_left, List.drop_left, inductionHypothesis]
      | true =>
          rcases cut_fault noFault with ⟨-, same⟩ | ⟨-, same⟩
          · rw [same]
            simp only [cleaned, List.take_length, List.drop_length, pieces, List.flatMap_nil, List.append_nil, same,
              List.map_nil]
          · rw [same] at inductionHypothesis ⊢
            have space : cut ' ' = fun _ => ⟨.gap, 0⟩ := rfl
            simp only [cleaned, List.singleton_append, pieces, space, List.take_zero, List.drop_zero] at *
            rw [inductionHypothesis]

section Positions

variable {parts : List (Piece × List Char)} {marks : List Nat} {position : Nat}

theorem spaced_append (text more : List Char) :
    spaced marks position (text ++ more) =
      spaced marks position text ++ spaced marks (position + text.length) more := by
  induction text generalizing position with
  | nil => rfl
  | cons c rest inductionHypothesis =>
      rw [List.cons_append, spaced, spaced, inductionHypothesis, List.length_cons, Nat.add_right_comm,
        ← Nat.add_assoc, List.cons_append]

/-- Nothing changes in front of all marks. -/
theorem spaced_before (text : List Char) (beyond : ∀ mark ∈ marks, position + text.length ≤ mark) :
    spaced marks position text = text := by
  induction text generalizing position with
  | nil => rfl
  | cons c rest inductionHypothesis =>
      have others : ∀ mark ∈ marks, position + 1 + rest.length ≤ mark := by
        intro mark isMark
        have := beyond mark isMark
        rw [List.length_cons] at this
        omega
      rw [spaced, inductionHypothesis others, if_neg]
      intro isMark
      have := others position isMark
      omega

/-- A mark makes no difference behind it. -/
theorem spaced_behind {mark : Nat} (text : List Char) (behind : mark < position) :
    spaced (mark :: marks) position text = spaced marks position text := by
  induction text generalizing position with
  | nil => rfl
  | cons c rest inductionHypothesis =>
      rw [spaced, spaced, inductionHypothesis (Nat.lt_succ_of_lt behind)]
      simp only [List.mem_cons, Nat.ne_of_gt behind, false_or]

theorem le_of_mem_marks {mark : Nat} (isMark : mark ∈ (straysFrom position parts).map Prod.fst) :
    position ≤ mark := by
  obtain ⟨stray, member, rfl⟩ := List.mem_map.mp isMark
  exact le_of_mem_straysFrom member

/-- Spaces at the positions of the unexpected characters are spaces in their pieces. -/
theorem spaced_straysFrom (stand : FaultsStand parts) (position : Nat) :
    spaced ((straysFrom position parts).map Prod.fst) position (parts.flatMap Prod.snd) =
      parts.flatMap fun part => (cleaned part).2 := by
  induction stand generalizing position with
  | done => rfl
  | gap _ inductionHypothesis | token _ inductionHypothesis =>
      simp only [List.flatMap_cons, straysFrom, spaced_append, inductionHypothesis]
      rw [spaced_before _ fun _ => le_of_mem_marks]
      rfl
  | unexpected _ _ inductionHypothesis =>
      simp only [List.flatMap_cons, straysFrom, List.map_cons, spaced_append, List.length_singleton]
      rw [spaced_behind _ (Nat.lt_succ_self position), inductionHypothesis, spaced, if_pos List.mem_cons_self]
      rfl
  | unterminated text =>
      simp only [List.flatMap_cons, List.flatMap_nil, List.append_nil]
      exact spaced_before text fun _ absent => absurd absent List.not_mem_nil

end Positions

theorem pieces_blanked (text : List Char) : pieces (blanked text) = (pieces text).map cleaned := by
  have whole := spaced_straysFrom (faultsStand_pieces text) 0
  rw [flatMap_pieces] at whole
  rw [blanked, strays, whole, pieces_cleaned]

/-- The text with spaces yields the same items but for the unexpected characters. -/
theorem items_cleaned {parts : List (Piece × List Char)} (stand : FaultsStand parts) (line : Nat) :
    items line (parts.map cleaned) = (items line parts).filter fun item => !item.isUnexpected := by
  induction stand generalizing line with
  | done => rfl
  | gap _ inductionHypothesis => exact inductionHypothesis _
  | token _ inductionHypothesis => exact congrArg _ (inductionHypothesis _)
  | unexpected oneLine _ inductionHypothesis =>
      have spaced := inductionHypothesis line
      rw [items, oneLine]
      exact spaced
  | unterminated text => rfl

/-! ## The faults of a scan -/

/-- The faults are the unexpected characters, and at most one string without a closing quote, which is last. -/
theorem faults_items {parts : List (Piece × List Char)} (stand : FaultsStand parts) (front : List Char) :
    ∃ unclosed, (items (1 + newlines front) parts).filterMap ScanItem.fault? =
        (straysFrom front.length parts).map (strayFault (front ++ parts.flatMap Prod.snd)) ++ unclosed ∧
      (unclosed = [] ∨ ∃ line, unclosed = [(.unterminated, line)] ∧
        [.fault .unterminated line, .finish line] <:+ items (1 + newlines front) parts) := by
  induction stand generalizing front with
  | done => exact ⟨[], rfl, .inl rfl⟩
  | @gap text _ _ inductionHypothesis =>
      have behind := inductionHypothesis (front ++ text)
      rwa [newlines_append, ← Nat.add_assoc, List.length_append, List.append_assoc] at behind
  | @token _ text _ _ inductionHypothesis =>
      have behind := inductionHypothesis (front ++ text)
      rw [newlines_append, ← Nat.add_assoc, List.length_append, List.append_assoc] at behind
      obtain ⟨unclosed, faults, last⟩ := behind
      refine ⟨unclosed, faults, last.imp_right fun ⟨line, same, ends⟩ => ⟨line, same, ?_⟩⟩
      exact ends.trans (List.suffix_cons _ _)
  | @unexpected c rest oneLine _ inductionHypothesis =>
      have behind := inductionHypothesis (front ++ [c])
      rw [newlines_append, ← Nat.add_assoc, List.length_append, List.append_assoc] at behind
      obtain ⟨unclosed, faults, last⟩ := behind
      refine ⟨unclosed, ?_, last.imp_right fun ⟨line, same, ends⟩ => ⟨line, same, ?_⟩⟩
      · have here : strayFault (front ++ ([c] ++ rest.flatMap Prod.snd)) (front.length, c) =
            (.unexpected c, 1 + newlines front + newlines [c]) := by
          rw [strayFault, List.take_left, oneLine, Nat.add_zero]
        rw [straysFrom, List.map_cons, List.flatMap_cons, here, List.cons_append, ← faults]
        rfl
      · exact ends.trans (List.suffix_cons _ _)
  | unterminated text => exact ⟨_, rfl, .inr ⟨_, rfl, List.suffix_refl _⟩⟩

theorem items_of_faultless {line : Nat} (parts : List (Piece × List Char))
    (faultless : (items line parts).filterMap ScanItem.fault? = []) :
    ∃ (tokens : List Token) (last : Nat), items line parts = tokens.map .token ++ [.finish last] := by
  induction parts generalizing line with
  | nil => exact ⟨[], line, rfl⟩
  | cons part rest inductionHypothesis =>
      rcases part with ⟨piece, text⟩
      cases piece with
      | gap => exact inductionHypothesis faultless
      | token kind =>
          obtain ⟨tokens, last, same⟩ := inductionHypothesis faultless
          exact ⟨_ :: tokens, last, congrArg _ same⟩
      | fault => cases faultless

theorem gatherTokens_of_fault {line : Nat} {found : List Token} {parts : List (Piece × List Char)}
    {first : LexicalFault × Nat} {others : List (LexicalFault × Nat)}
    (faults : (items line parts).filterMap ScanItem.fault? = first :: others) :
    gatherTokens found (items line parts) = .error first := by
  induction parts generalizing line found with
  | nil => cases faults
  | cons part rest inductionHypothesis =>
      rcases part with ⟨piece, text⟩
      cases piece with
      | gap => exact inductionHypothesis faults
      | token kind => exact inductionHypothesis faults
      | fault =>
          cases faults
          rfl

end Lexer

open Lexer

/-- The scan with spaces in place of the unexpected characters yields the items of the scan without them. -/
theorem scan_blanked (source : String) :
    scan (String.ofList (blanked source.toList)) = (scan source).filter fun item => !item.isUnexpected := by
  rw [scan_eq, scan_eq, String.toList_ofList, pieces_blanked]
  exact items_cleaned (faultsStand_pieces source.toList) 1

theorem faults_scan (source : String) :
    ∃ unclosed, (scan source).filterMap ScanItem.fault? =
        (strays source.toList).map (strayFault source.toList) ++ unclosed ∧
      (unclosed = [] ∨ ∃ line, unclosed = [(.unterminated, line)] ∧
        [.fault .unterminated line, .finish line] <:+ scan source) := by
  have faults := faults_items (faultsStand_pieces source.toList) []
  rw [List.nil_append, flatMap_pieces] at faults
  rw [scan_eq]
  exact faults

theorem tokenize_of_faultless {source : String} (faultless : (scan source).filterMap ScanItem.fault? = []) :
    ∃ stream : TokenStream, tokenize source = .ok stream ∧
      scan source = stream.tokens.map .token ++ [.finish stream.endLine] := by
  rw [scan_eq] at faultless
  obtain ⟨tokens, last, same⟩ := items_of_faultless _ faultless
  rw [← scan_eq] at same
  refine ⟨⟨tokens, last⟩, ?_, same⟩
  rw [tokenize, same]
  exact gatherTokens_map [] tokens last

theorem tokenize_of_fault {source : String} {first : LexicalFault × Nat} {others : List (LexicalFault × Nat)}
    (faults : (scan source).filterMap ScanItem.fault? = first :: others) : tokenize source = .error first := by
  rw [scan_eq] at faults
  rw [tokenize, scan_eq]
  exact gatherTokens_of_fault faults

/-- Faults do not disturb the rest of a scan.

With a space in place of each unexpected character, a text yields the same tokens on the same lines and the same
end, and no unexpected character any more.  The faults of the text are its unexpected characters in order, each
with the line on which it stands, and behind them at most a string without a closing quote, which is followed by
the end of the text only.  The tokens come out if there is no fault, and otherwise the first fault does. -/
theorem faults_leave_tokens (source : String) :
    ((scan (String.ofList (blanked source.toList))).filter (fun item => item.fault?.isNone) =
        (scan source).filter (fun item => item.fault?.isNone) ∧
      ∀ c line, .fault (.unexpected c) line ∉ scan (String.ofList (blanked source.toList))) ∧
    ((strays source.toList).Pairwise (fun stray later => stray.1 < later.1) ∧
      (∀ stray ∈ strays source.toList, source.toList[stray.1]? = some stray.2) ∧
      ∃ unclosed, (scan source).filterMap ScanItem.fault? =
          (strays source.toList).map (strayFault source.toList) ++ unclosed ∧
        (unclosed = [] ∨ ∃ line, unclosed = [(.unterminated, line)] ∧
          [.fault .unterminated line, .finish line] <:+ scan source)) ∧
    ((scan source).filterMap ScanItem.fault? = [] → ∃ stream : TokenStream, tokenize source = .ok stream ∧
      scan source = stream.tokens.map .token ++ [.finish stream.endLine]) ∧
    ∀ first others, (scan source).filterMap ScanItem.fault? = first :: others →
      tokenize source = .error first := by
  have stand := faultsStand_pieces source.toList
  refine ⟨⟨?_, ?_⟩, ⟨pairwise_straysFrom stand, ?_, faults_scan source⟩, tokenize_of_faultless,
    fun _ _ => tokenize_of_fault⟩
  · rw [scan_blanked, List.filter_filter]
    apply List.filter_congr
    intro item _
    rcases item with _ | ⟨_ | _, _⟩ | _ <;> rfl
  · intro c line member
    rw [scan_blanked] at member
    cases (List.mem_filter.mp member).2
  · intro stray member
    rw [strays, ← List.length_nil] at member
    have found := getElem?_of_mem_straysFrom stand member
    rwa [List.nil_append, flatMap_pieces] at found

/-- A point that belongs to no numeral, and then a string that nothing closes. -/
theorem faults_leave_tokens_unclosed :
    (scan "1.\n\"é").filterMap ScanItem.fault? = [(.unexpected '.', 1), (.unterminated, 2)] ∧
      tokenize "1.\n\"é" = .error (.unexpected '.', 1) := by
  have faults : (scan "1.\n\"é").filterMap ScanItem.fault? = [(.unexpected '.', 1), (.unterminated, 2)] := by cbv
  have recovers := faults_leave_tokens "1.\n\"é"
  exact ⟨faults, recovers.2.2.2 _ _ faults⟩

end ScopedScript

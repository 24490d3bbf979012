import ScopedScript.Proofs.Lexing.Reading
namespace ScopedScript

/-!
# A lexer covers its text

What a lexer tells stands in the text one behind the other, with nothing between but gaps.  A gap holds blank
characters and comments, and a comment is whole: only the end of its line or of the text stops it.  `Covers` says
this of a run of `next`, by positions of the text.  Such a position is a boundary between two characters by its type,
so no character is ever split, and no answer of the run is a breach.

The line of a thing that is told is the line on which its text ends.  The end of the text is told once, behind all
others, and nothing behind it.
-/

namespace Lexer

variable {source : String}

/-- Blank characters and whole comments, in front of the given characters. -/
inductive IsGap (behind : List Char) : List Char → Prop where
  | done : IsGap behind []
  | blank {c : Char} {rest : List Char} (isBlank : c ∈ [' ', '\t', '\r', '\n'])
      (others : IsGap behind rest) : IsGap behind (c :: rest)
  | comment {body rest : List Char} (oneLine : '\n' ∉ body)
      (whole : ∀ c ∈ (rest ++ behind).head?, c = '\n') (others : IsGap behind rest) :
      IsGap behind ('/' :: '/' :: (body ++ rest))

/-- What is told stands between two positions of the text, and has the line on which it ends. -/
inductive Tells (start : source.Pos) : source.Pos → Yield → Prop where
  | token {stop : source.Pos} {kind : TokenKind} {lexeme : String} (slice : String.extract start stop = lexeme)
      (spelled : kind.lexeme = lexeme) : Tells start stop (.token kind lexeme (lineAt stop))
  | unexpected {stop : source.Pos} {c : Char} (text : String.extract start stop = String.singleton c) :
      Tells start stop (.fault (.unexpected c) (lineAt stop))
  | unterminated {body : String} (isOpen : '"' ∉ body.toList)
      (text : String.extract start source.endPos = "\"" ++ body) :
      Tells start source.endPos (.fault .unterminated (lineAt source.endPos))

/-- A lexer tells these things one after another, and they fill the text from a position up to its end. -/
inductive Covers : Lexer → source.Pos → List Yield → Prop where
  | finish {lexer after : Lexer} {front : source.Pos}
      (answer : lexer.next = .ok (some (.finish (lineAt source.endPos)), after))
      (gap : IsGap [] (String.extract front source.endPos).toList)
      (ended : after.next = .ok (none, after)) : Covers lexer front [.finish (lineAt source.endPos)]
  | item {lexer after : Lexer} {front start stop : source.Pos} {told : Yield} {rest : List Yield}
      (answer : lexer.next = .ok (some told, after))
      (bounds : after.start = start.offset.byteIdx ∧ after.position = stop.offset.byteIdx)
      (inOrder : front ≤ start) (filled : start < stop)
      (gap : IsGap (String.extract start source.endPos).toList (String.extract front start).toList)
      (tells : Tells start stop told) (others : Covers after stop rest) : Covers lexer front (told :: rest)

/-- The answers to so many calls for the next thing to tell. -/
def answers (lexer : Lexer) : Nat → Except Breach (List (Option Yield))
  | 0 => .ok []
  | count + 1 => do
    let (told, after) ← lexer.next
    return told :: (← after.answers count)

/-! ## Gaps -/

theorem IsGap.append {behind front back : List Char} (first : IsGap (back ++ behind) front)
    (second : IsGap behind back) : IsGap behind (front ++ back) := by
  induction first with
  | done => exact second
  | blank isBlank _ inductionHypothesis => exact .blank isBlank inductionHypothesis
  | comment oneLine whole _ inductionHypothesis =>
      rw [List.cons_append, List.cons_append, List.append_assoc]
      rw [← List.append_assoc] at whole
      exact .comment oneLine whole inductionHypothesis

/-- What a gap is cut from is a gap. -/
theorem Piece.Takes.isGap {text behind : List Char} (takes : Piece.gap.Takes text behind) :
    IsGap behind text := by
  cases takes with
  | blank isBlank =>
      refine .blank ?_ .done
      simpa [Lexer.isBlank, or_comm, or_assoc, or_left_comm] using isBlank
  | @comment body _ oneLine whole =>
      rw [← List.append_nil body]
      exact .comment oneLine whole .done

/-! ## What a run has behind it -/

/-- A lexer in the middle of its run over a text. -/
structure Runs (source : String) (lexer : Lexer) (front back : List Char) : Prop where
  stands : lexer.Stands front back
  text : lexer.text = source
  line : lexer.line = 1 + newlines front
  notDone : lexer.done = false

theorem runs_ofText (source : String) : Runs source (ofText source) [] source.toList :=
  ⟨stands_ofText source, rfl, rfl, rfl⟩

section Steps

variable {lexer : Lexer} {front back rest : List Char} {first : Char}

theorem Runs.toList_eq (runs : Runs source lexer front back) : source.toList = front ++ back := by
  rw [← runs.text]
  exact runs.stands.text

/-- The answer that a piece gives.  Gaps give none, and the search goes on behind them. -/
def Piece.answer (after : Lexer) (lexeme : String) : Piece → Except Breach (Option Yield × Lexer)
  | gap => after.next
  | token kind => .ok (some (.token kind lexeme after.line), after)
  | fault f => .ok (some (.fault f after.line), after)

theorem next_of_lex {after : Lexer} {piece : Piece} {lexeme : String} (more : lexer.isAtEnd = false)
    (read : lex { lexer with start := lexer.position } = .ok (piece, after))
    (sliced : after.slice after.start after.position = .ok lexeme) : lexer.next = piece.answer after lexeme := by
  rw [next, if_neg (Bool.eq_false_iff.mp more), Lexer.read, withEvidence_ok read]
  cases piece with
  | gap => rfl
  | token kind =>
      dsimp only
      rw [sliced]
      rfl
  | fault f => rfl

/-- The next piece gives the answer, and the run goes on behind it. -/
theorem Runs.next_cons (runs : Runs source lexer front (first :: rest)) :
    ∃ after, lexer.next =
        (cut first rest).piece.answer after (String.ofList (first :: rest.take (cut first rest).extra)) ∧
      Runs source after (front ++ first :: rest.take (cut first rest).extra) (rest.drop (cut first rest).extra) ∧
        after.start = byteLength front := by
  have begun : Stands { lexer with start := lexer.position } front (first :: rest) :=
    ⟨runs.stands.text, runs.stands.bytes, runs.stands.position⟩
  rcases lex_isRead begun runs.stands.position with ⟨after, read, passes⟩
  have answer := next_of_lex runs.stands.isAtEnd_cons read (passes.sliced runs.stands.position)
  refine ⟨after, answer, ⟨passes.stands, passes.sameText.trans runs.text, ?_, passes.done.trans runs.notDone⟩,
    passes.start.trans runs.stands.position⟩
  rw [passes.line, runs.line, newlines_append, Nat.add_assoc]

/-- Behind its last character a lexer tells the end of the text, and nothing any more. -/
theorem Runs.next_nil (runs : Runs source lexer front []) :
    ∃ after, lexer.next = .ok (some (.finish lexer.line), after) ∧ after.next = .ok (none, after) := by
  refine ⟨{ lexer with done := true }, ?_, ?_⟩
  · rw [next, if_pos runs.stands.isAtEnd_nil, runs.notDone]
    rfl
  · have atEnd : isAtEnd { lexer with done := true } = true := runs.stands.isAtEnd_nil
    rw [next, if_pos atEnd, if_pos rfl]

end Steps

/-! ## A whole run covers the text -/

theorem Piece.exists_answer {piece : Piece} (noGap : piece ≠ .gap) (after : Lexer) (lexeme : String) :
    ∃ told, piece.answer after lexeme = .ok (some told, after) ∧ piece.item? after.line = some told.item := by
  cases piece with
  | gap => exact absurd rfl noGap
  | token kind => exact ⟨_, rfl, rfl⟩
  | fault f => exact ⟨_, rfl, rfl⟩

/-- What is told of a piece stands where the piece does. -/
theorem Piece.Takes.tells {piece : Piece} {front text behind : List Char} {start stop : source.Pos} {told : Yield}
    {after more : Lexer} (takes : piece.Takes text behind) (line : after.line = lineAt stop)
    (answer : piece.answer after (String.ofList text) = .ok (some told, more)) (noGap : piece ≠ .gap)
    (before : Splits start front (text ++ behind)) (beyond : Splits stop (front ++ text) behind) :
    Tells start stop told := by
  have slice := before.extract_eq beyond
  cases takes with
  | blank => exact absurd rfl noGap
  | comment => exact absurd rfl noGap
  | token kind =>
      cases answer
      rw [line]
      exact .token slice String.ofList_toList.symm
  | unexpected =>
      cases answer
      rw [line]
      exact .unexpected slice
  | @unterminated body isOpen =>
      cases answer
      rw [line]
      have atEnd := beyond.eq_endPos
      subst atEnd
      have quoted : String.ofList ('"' :: body) = "\"" ++ String.ofList body :=
        @String.ofList_append ['"'] body
      exact .unterminated (by rwa [String.toList_ofList]) (slice.trans quoted)

/-- What is told of a piece and what is told behind it fill the text, from the gap in front of the piece on. -/
theorem Piece.Takes.covers_cons {piece : Piece} {front gap taken left : List Char} {asked after : Lexer}
    {last : source.Pos} (takes : piece.Takes taken left) (noGap : piece ≠ .gap) (filled : taken ≠ [])
    (runs : Runs source after (front ++ gap ++ taken) left) (start : after.start = byteLength (front ++ gap))
    (answer : asked.next = piece.answer after (String.ofList taken)) (before : Splits last front (gap ++ (taken ++ left)))
    (isGap : IsGap (taken ++ left) gap) :
    ∃ (told : Yield) (stop : source.Pos), Splits stop (front ++ gap ++ taken) left ∧
      piece.item? after.line = some told.item ∧
      ∀ yields, Covers after stop yields → Covers asked last (told :: yields) := by
  have whole := runs.toList_eq
  rcases exists_splits whole with ⟨stop, beyond⟩
  rw [List.append_assoc] at whole
  rcases exists_splits whole with ⟨here, split⟩
  rcases piece.exists_answer noGap after (String.ofList taken) with ⟨told, answered, item⟩
  have line : after.line = lineAt stop := by rw [runs.line, beyond.lineAt_eq]
  have bounds : after.start = here.offset.byteIdx ∧ after.position = stop.offset.byteIdx :=
    ⟨start.trans split.offset_eq.symm, runs.stands.position.trans beyond.offset_eq.symm⟩
  have between : IsGap (String.extract here source.endPos).toList (String.extract last here).toList := by
    rwa [before.extract_eq split, split.extract_endPos, String.toList_ofList, String.toList_ofList]
  refine ⟨told, stop, beyond, item, fun yields covers => ?_⟩
  exact .item (answer.trans answered) bounds (before.le split) (split.lt beyond filled) between
    (takes.tells line answered noGap split beyond) covers

/-- A run covers what stands behind its last position, the gap that it passed included.  What it tells are the items
of the pieces. -/
theorem Runs.covers (text : List Char) : ∀ (lexer asked : Lexer) (front gap : List Char) (last : source.Pos),
    Runs source lexer (front ++ gap) text → asked.next = lexer.next → Splits last front (gap ++ text) →
      IsGap text gap → ∃ yields, Covers asked last yields ∧
        yields.map Yield.item = items lexer.line (pieces text) := by
  fun_induction pieces text with
  | case1 =>
      intro lexer asked front gap last runs same before isGap
      rcases runs.next_nil with ⟨after, answer, ended⟩
      have line : lexer.line = lineAt source.endPos := by
        rw [splits_endPos.lineAt_eq, runs.line, runs.toList_eq, List.append_nil]
      rw [line] at answer ⊢
      refine ⟨_, .finish (same.trans answer) ?_ ended, rfl⟩
      rwa [before.extract_endPos, String.toList_ofList, List.append_nil]
  | case2 first rest next inductionHypothesis =>
      intro lexer asked front gap last runs same before isGap
      have takes := cut_fits first rest
      have parts : first :: rest =
          (first :: rest.take (cut first rest).extra) ++ rest.drop (cut first rest).extra := by
        rw [List.cons_append, List.take_append_drop]
      have filled : first :: rest.take (cut first rest).extra ≠ [] := List.cons_ne_nil _ _
      rcases runs.next_cons with ⟨after, answer, runsOn, start⟩
      rw [items]
      unfold Cut.Fits at takes
      rw [parts] at before isGap
      generalize first :: rest.take (cut first rest).extra = taken at *
      generalize rest.drop (cut first rest).extra = left at *
      generalize (cut first rest).piece = piece at *
      have lineAfter : after.line = lexer.line + newlines taken := by
        rw [runsOn.line, runs.line, newlines_append _ taken, Nat.add_assoc]
      rw [← lineAfter]
      by_cases noGap : piece = .gap
      · subst noGap
        rw [← List.append_assoc] at before
        rw [List.append_assoc front] at runsOn
        exact inductionHypothesis after asked front (gap ++ taken) last runsOn (same.trans answer) before
          (isGap.append takes.isGap)
      · obtain ⟨told, stop, beyond, item, onward⟩ :=
          takes.covers_cons noGap filled runsOn start (same.trans answer) before isGap
        have runsOnward : Runs source after (front ++ gap ++ taken ++ []) left := by rwa [List.append_nil]
        obtain ⟨yields, covers, itemsEq⟩ := inductionHypothesis after after (front ++ gap ++ taken) [] stop
          runsOnward rfl beyond .done
        refine ⟨told :: yields, onward yields covers, ?_⟩
        rw [item, List.map_cons, itemsEq]
        rfl

/-! ## Everything that is told -/

section Told

variable {lexer : Lexer} {front : source.Pos} {yields : List Yield}

theorem collect_of_some {after : Lexer} {more : Yield} (answer : lexer.next = .ok (some more, after))
    (told : List Yield) : lexer.collect told = after.collect (more :: told) := by
  rw [collect, tell, withEvidence_ok answer]

theorem collect_of_none {after : Lexer} (answer : lexer.next = .ok (none, after)) (told : List Yield) :
    lexer.collect told = .ok told.reverse := by
  rw [collect, tell, withEvidence_ok answer]

/-- What a run covers is what is collected of it. -/
theorem Covers.collect_eq (covers : Covers lexer front yields) (told : List Yield) :
    lexer.collect told = .ok (told.reverse ++ yields) := by
  induction covers generalizing told with
  | finish answer _ ended => rw [collect_of_some answer, collect_of_none ended, List.reverse_cons]
  | item answer _ _ _ _ _ _ inductionHypothesis =>
      rw [collect_of_some answer, inductionHypothesis, List.reverse_cons, List.append_assoc, List.singleton_append]

theorem answers_of_none (ended : lexer.next = .ok (none, lexer)) (count : Nat) :
    lexer.answers count = .ok (List.replicate count none) := by
  induction count with
  | zero => rfl
  | succ count inductionHypothesis =>
      rw [answers, ended]
      change (do return none :: (← lexer.answers count)) = _
      rw [inductionHypothesis]
      rfl

/-- Calls beyond the last thing to tell give no answer. -/
theorem Covers.answers_eq (covers : Covers lexer front yields) (more : Nat) :
    lexer.answers (yields.length + more) = .ok (yields.map some ++ List.replicate more none) := by
  induction covers with
  | @finish lexer after _ answer _ ended =>
      rw [List.length_singleton, Nat.add_comm, answers, answer]
      change (do return some _ :: (← after.answers more)) = _
      rw [answers_of_none ended]
      rfl
  | @item lexer after _ _ _ told rest answer _ _ _ _ _ _ inductionHypothesis =>
      rw [List.length_cons, Nat.add_right_comm, answers, answer]
      change (do return some told :: (← after.answers (rest.length + more))) = _
      rw [inductionHypothesis]
      rfl

/-- The end of the text is told once, behind all others. -/
theorem Covers.ends_once (covers : Covers lexer front yields) :
    ∃ before, yields = before ++ [.finish (lineAt source.endPos)] ∧ ∀ line, .finish line ∉ before := by
  induction covers with
  | finish => exact ⟨[], rfl, fun _ => List.not_mem_nil⟩
  | item _ _ _ _ _ tells _ inductionHypothesis =>
      rcases inductionHypothesis with ⟨before, parts, noEnd⟩
      refine ⟨_ :: before, congrArg _ parts, fun line => ?_⟩
      rw [List.mem_cons, not_or]
      refine ⟨fun same => ?_, noEnd line⟩
      subst same
      cases tells

end Told

theorem exists_covers (source : String) :
    ∃ yields, Covers (ofText source) source.startPos yields ∧
      yields.map Yield.item = items 1 (pieces source.toList) :=
  (runs_ofText source).covers source.toList (ofText source) (ofText source) [] [] source.startPos rfl
    splits_startPos .done

/-- A scan yields the items of the pieces of its text. -/
theorem scan_eq (source : String) : scan source = items 1 (pieces source.toList) := by
  rcases exists_covers source with ⟨yields, covers, items⟩
  rw [scan, covers.collect_eq, ← items]
  rfl

/-- Whatever a text is, a run of a lexer over it ends and never breaches it.  What it tells stands in the text in
order, with nothing but gaps around it, and is what the text is scanned into.  The end of the text is told once,
behind all others, and every further call is answered with nothing. -/
theorem scan_covers (source : String) :
    ∃ yields, (ofText source).collect [] = .ok yields ∧ scan source = yields.map Yield.item ∧
      Covers (ofText source) source.startPos yields ∧
      (∃ before, yields = before ++ [.finish (lineAt source.endPos)] ∧ ∀ line, .finish line ∉ before) ∧
      ∀ more, (ofText source).answers (yields.length + more) =
        .ok (yields.map some ++ List.replicate more none) := by
  rcases exists_covers source with ⟨yields, covers, items⟩
  exact ⟨yields, covers.collect_eq [], by rw [scan_eq, items], covers, covers.ends_once, covers.answers_eq⟩

/-- A character of two bytes that begins nothing, a number, a string over two lines, and a comment with another such
character in front of the end of its line. -/
theorem scan_covers_mixed :
    let source := "é1.5\"a\nb\"// é\n@"
    let yields : List Yield := [.fault (.unexpected 'é') 1, .token (.number "1.5") "1.5" 1,
      .token (.string "a\nb") "\"a\nb\"" 2, .fault (.unexpected '@') 3, .finish 3]
    (ofText source).collect [] = .ok yields ∧ Covers (ofText source) source.startPos yields ∧
      (ofText source).answers 7 = .ok (yields.map some ++ [none, none]) := by
  intro source yields
  have collected : (ofText source).collect [] = .ok yields := by decide +kernel
  rcases scan_covers source with ⟨others, collectedToo, -, covers, -, answers⟩
  obtain rfl : yields = others := Except.ok.inj (collected.symm.trans collectedToo)
  exact ⟨collected, covers, answers 2⟩

end Lexer

/-- What a text is cut into, by its pieces and without its bytes.  A closed text is evaluated in this form. -/
theorem tokenize_eq (source : String) :
    tokenize source = gatherTokens [] (Lexer.items 1 (Lexer.pieces source.toList)) := by
  rw [tokenize, Lexer.scan_eq]

end ScopedScript

import ScopedScript.Proofs.Recognition.ProgramAcceptance
namespace ScopedScript

/-!
# Syntax errors at the earliest token

The parser reports a token as soon as no sentence of the grammar begins with the tokens up to it.  What it has read
before begins a sentence, since its rules obey the grammar.  What it has read with the token does not: a sentence
that begins so would be read, and would not be read, since the parser does not look further than the token.
-/

/-- Tokens as a sentence, with the end of the text behind them. -/
def written (tokens : List Token) : List (Option TokenKind) := (kinds tokens).map some ++ [none]

theorem written_append (used rest : List Token) : written (used ++ rest) = (kinds used).map some ++ written rest := by
  rw [written, kinds, List.map_append, List.map_append, List.append_assoc]
  rfl

theorem take_written (used rest : List Token) (n : Nat) :
    (written (used ++ rest)).take (used.length + n) = (kinds used).map some ++ (written rest).take n := by
  have length : used.length = ((kinds used).map some).length := by rw [kinds, List.length_map, List.length_map]
  rw [written_append, length, List.take_length_add_append]

/-- Words that begin alike, when one of them is whole. -/
theorem exists_append_of_map_some {begun word : Word} {more : List (Option TokenKind)}
    (same : begun.map some ++ more = word.map some ++ [none]) :
    (∃ tail, word = begun ++ tail) ∧ (more.head? = some none → word = begun) := by
  induction begun generalizing word with
  | nil =>
      refine ⟨⟨word, rfl⟩, fun ended => ?_⟩
      cases word with
      | nil => rfl
      | cons kind word =>
          rw [List.map_nil, List.nil_append] at same
          rw [same] at ended
          cases ended
  | cons kind begun inductionHypothesis =>
      cases word with
      | nil =>
          cases List.cons.inj same |>.1
      | cons other word =>
          rcases List.cons.inj same with ⟨first, rest⟩
          cases first
          rcases inductionHypothesis rest with ⟨⟨tail, rfl⟩, whole⟩
          exact ⟨⟨tail, rfl⟩, fun ended => congrArg (kind :: ·) (whole ended)⟩

/-- A sentence of the grammar is parsed, or refused for what the grammar allows beyond the parser. -/
theorem program_of_sentence {tokens : List Token} (derived : Derives .declarations (kinds tokens)) (next : RefId)
    {error : SyntaxError} (failed : Rule.program tokens next = .error error) : error.complaint.isBeyond = true := by
  rcases (derived.accepted tokens rfl).2 next with ⟨value, after, read⟩ | ⟨other, same, beyond⟩
  · rw [failed] at read
    cases read
  · rw [failed] at same
    cases same
    exact beyond

/-- When parsing fails at a token, for a reason that the grammar knows, the tokens before it begin a sentence and the
tokens up to it do not. -/
theorem errors_earliest {tokens : List Token} {next : RefId} {error : SyntaxError}
    (failed : parse tokens next = .error error) (noTarget : error.complaint ≠ .assignmentTarget)
    (fewParameters : error.complaint ≠ .tooManyParameters) (fewArguments : error.complaint ≠ .tooManyArguments) :
    ∃ k, (tokens.map some ++ [none])[k]? = some error.found ∧
      (∃ more, Sentence ((written tokens).take k ++ more)) ∧
      ∀ more, ¬ Sentence ((written tokens).take (k + 1) ++ more) := by
  have within : error.complaint.isBeyond = false := by
    cases same : error.complaint <;> first | rfl | contradiction
  have failedToo : Rule.program tokens next = .error error := by rw [Rule.program, failed]; rfl
  rcases (Rule.program_obeys tokens next).failsNext failedToo within with ⟨used, rest, rfl, found, viable, alone⟩
  refine ⟨used.length, ?_, ?_, fun more sentence => ?_⟩
  · rw [found, List.map_append, List.append_assoc, List.getElem?_append_right (by simp)]
    cases rest <;> simp
  · rcases viable with ⟨more, derived⟩
    refine ⟨more.map some ++ [none], _, derived, ?_⟩
    rw [← Nat.add_zero used.length, take_written, List.take_zero, List.append_nil, List.map_append, List.append_assoc]
  · rcases sentence with ⟨word, derived, same⟩
    rw [take_written, List.append_assoc] at same
    have refused (behind : List Token) (alike : behind.head? = rest.head?)
        (derived : Derives .declarations (kinds (used ++ behind))) : False := by
      have beyond := program_of_sentence derived next (alone behind alike)
      rw [within] at beyond
      cases beyond
    cases rest with
    | nil =>
        have whole := (exists_append_of_map_some same).2 rfl
        refine refused [] rfl ?_
        rwa [List.append_nil, ← whole]
    | cons token others =>
        have begins : (kinds (used ++ [token])).map some ++ more = word.map some ++ [none] := by
          rw [← same, kinds, List.map_append, List.map_append, List.append_assoc]
          rfl
        rcases (exists_append_of_map_some begins).1 with ⟨tail, rfl⟩
        refine refused (token :: tail.map (⟨·, token.line⟩)) rfl ?_
        have spelled : kinds (used ++ token :: tail.map (⟨·, token.line⟩)) = kinds (used ++ [token]) ++ tail := by
          simp [kinds, Function.comp_def]
        rwa [spelled]

/-- A brace closes the arguments of a call in a loop that has no body yet. -/
theorem errors_earliest_openCall :
    let tokens : List Token := [
      ⟨.keyword .whileWord, 1⟩, ⟨.symbol .leftParen, 1⟩, ⟨.identifier "f", 1⟩, ⟨.symbol .leftParen, 1⟩,
      ⟨.identifier "a", 1⟩, ⟨.symbol .equal, 1⟩, ⟨.identifier "b", 1⟩, ⟨.symbol .plus, 1⟩,
      ⟨.identifier "c", 1⟩, ⟨.symbol .rightBrace, 2⟩, ⟨.symbol .semicolon, 2⟩]
    let error : SyntaxError := ⟨.argumentsClose, some ⟨.symbol .rightBrace, 2⟩⟩
    parse tokens 0 = .error error ∧
      ∃ k, (tokens.map some ++ [none])[k]? = some error.found ∧
        (∃ more, Sentence ((written tokens).take k ++ more)) ∧
        ∀ more, ¬ Sentence ((written tokens).take (k + 1) ++ more) := by
  intro tokens error
  have failed : parse tokens 0 = .error error := by
    unfold tokens error
    cbv
  exact ⟨failed, errors_earliest failed (by simp [error]) (by simp [error]) (by simp [error])⟩

end ScopedScript

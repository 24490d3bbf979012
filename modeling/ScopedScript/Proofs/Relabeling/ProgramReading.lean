import ScopedScript.Proofs.Grammar.ProgramCompleteness
import ScopedScript.Proofs.Relabeling.ExpressionReading
namespace ScopedScript

/-!
# Programs read at another place

The same for statements.  A statement is closed by a symbol of its own, so nothing behind it matters but
an `else`, and no text that is a program by itself begins with one.  Hence two programs, one behind the
other, are read as one: that is `parse_placed`.
-/

/-- No `else` comes directly behind what was left. -/
def Place.KeepsElse (place : Place) (rest : List Token) : Prop := rest = [] → NoElse place.more

theorem Place.noElse_tokens {place : Place} {rest : List Token} (keeps : place.KeepsElse rest)
    (noElse : NoElse rest) : NoElse (place.tokens rest) := by
  intro line behind placed
  cases rest with
  | nil => exact keeps rfl line behind placed
  | cons token others =>
      rcases token with ⟨kind, _⟩
      cases placed
      exact noElse _ _ rfl

namespace Rule

open ScopedScript.Parser (refuse ForHeader)

variable {place : Place} {tokens : List Token} {next : RefId}

/-! ## Parts of statements -/

theorem expressionThen_placed {stop : Symbol} {complaint : Complaint} {out : Parsed Expr}
    (read : expressionThen stop complaint tokens next = .ok out) :
    expressionThen stop complaint (place.tokens tokens) (place.offset + next) =
      .ok (place.parsed (Expr.relabel place.labels) out) := by
  rw [expressionThen_eq] at read ⊢
  rcases bind_eq_ok.mp read with ⟨value, valueRead, tail⟩
  rcases bind_eq_ok.mp tail with ⟨close, closeRead, made⟩
  have followed : place.Apart value.rest := .of_lt (Reading.length_lt closeRead)
  cases made
  rw [expression_placed valueRead followed]
  dsimp only [bind, Except.bind, Place.parsed]
  rw [expect_placed closeRead]
  rfl

/-- A symbol that does not come next at one place does not come next at another. -/
theorem expect_placed_error {wanted : Symbol} {complaint : Complaint} {error : SyntaxError}
    (missed : expect wanted complaint tokens next = .error error) (apart : place.Apart tokens) :
    ∃ errorToo, expect wanted complaint (place.tokens tokens) (place.offset + next) =
      .error errorToo := by
  cases found : expect wanted complaint (place.tokens tokens) (place.offset + next) with
  | error errorToo => exact ⟨errorToo, rfl⟩
  | ok out =>
      refine absurd (expect_ok found).1 (Place.absent apart ?_ _ _)
      intro line behind same
      subst same
      rw [expect_eq] at missed
      dsimp only at missed
      rw [if_pos rfl] at missed
      cases missed

theorem optionalThen_placed {stop : Symbol} {complaint : Complaint} {out : Parsed (Option Expr)}
    (read : optionalThen stop complaint tokens next = .ok out) :
    optionalThen stop complaint (place.tokens tokens) (place.offset + next) =
      .ok (place.parsed (Expr.relabel? place.labels) out) := by
  have some : place.Apart tokens := .of_lt (Reading.length_lt read)
  rw [optionalThen_eq] at read ⊢
  split at read
  · rename_i close closeRead
    cases read
    rw [expect_placed closeRead]
    rfl
  · rename_i error missed
    rcases expect_placed_error missed some with ⟨errorToo, missedToo⟩
    rcases bind_eq_ok.mp read with ⟨value, valueRead, made⟩
    cases made
    rw [missedToo]
    dsimp only
    rw [expressionThen_placed valueRead]
    rfl

theorem condition_placed {opening closing : Complaint} {out : Parsed Expr}
    (read : condition opening closing tokens next = .ok out) :
    condition opening closing (place.tokens tokens) (place.offset + next) =
      .ok (place.parsed (Expr.relabel place.labels) out) := by
  rw [condition_eq] at read ⊢
  rcases bind_eq_ok.mp read with ⟨start, startRead, tail⟩
  rw [expect_placed startRead]
  exact expressionThen_placed tail

theorem printList_placed {tokens : List Token} {next : RefId} {out : Parsed (List Expr)}
    (read : printList tokens next = .ok out) :
    printList (place.tokens tokens) (place.offset + next) =
      .ok (place.parsed (Expr.relabelAll place.labels) out) := by
  rw [printList_eq] at read ⊢
  rcases bind_eq_ok.mp read with ⟨value, valueRead, tail⟩
  have valueShorter : value.rest.length < tokens.length := Reading.length_lt valueRead
  rcases value with ⟨value, middle, follows⟩
  dsimp only at tail valueShorter
  split at tail
  · rcases bind_eq_ok.mp tail with ⟨others, othersRead, made⟩
    have othersPlaced := printList_placed othersRead
    cases made
    rw [expression_placed valueRead (.cons _ _)]
    dsimp only [bind, Except.bind, Place.parsed]
    rw [Place.tokens_cons]
    dsimp only
    rw [othersPlaced]
    rfl
  · cases tail
    rw [expression_placed valueRead (.cons _ _)]
    rfl
  · cases tail
termination_by tokens.length
decreasing_by subst_vars; simp only [List.length_cons] at *; omega

theorem initializer_placed {out : Parsed (Option Expr)}
    (read : initializer tokens next = .ok out) :
    initializer (place.tokens tokens) (place.offset + next) =
      .ok (place.parsed (Expr.relabel? place.labels) out) := by
  have some : place.Apart tokens := .of_lt (Reading.length_lt read)
  rw [initializer_eq] at read ⊢
  split at read
  · rcases bind_eq_ok.mp read with ⟨value, valueRead, made⟩
    cases made
    rw [Place.tokens_cons]
    dsimp only
    rw [expressionThen_placed valueRead]
    rfl
  · rename_i notEqual
    rcases bind_eq_ok.mp read with ⟨close, closeRead, made⟩
    cases made
    split
    · rename_i placed
      exact absurd placed (Place.absent some notEqual _ _)
    · rw [expect_placed closeRead]
      rfl

theorem variableDeclaration_placed {out : Parsed Stmt}
    (read : variableDeclaration tokens next = .ok out) :
    variableDeclaration (place.tokens tokens) (place.offset + next) =
      .ok (place.parsed (Stmt.relabel place.labels) out) := by
  rw [variableDeclaration_eq] at read ⊢
  rcases bind_eq_ok.mp read with ⟨name, nameRead, tail⟩
  rcases bind_eq_ok.mp tail with ⟨value, valueRead, made⟩
  cases made
  rw [identifier_placed nameRead]
  dsimp only [bind, Except.bind, Place.parsed]
  rw [initializer_placed valueRead]
  rfl

theorem expressionStatement_placed {out : Parsed Stmt}
    (read : expressionStatement tokens next = .ok out) :
    expressionStatement (place.tokens tokens) (place.offset + next) =
      .ok (place.parsed (Stmt.relabel place.labels) out) := by
  rw [expressionStatement_eq] at read ⊢
  rcases bind_eq_ok.mp read with ⟨value, valueRead, made⟩
  cases made
  rw [expressionThen_placed valueRead]
  rfl

theorem forInitializer_placed {out : Parsed (Option Stmt)}
    (read : forInitializer tokens next = .ok out) :
    forInitializer (place.tokens tokens) (place.offset + next) =
      .ok (place.parsed (Stmt.relabel? place.labels) out) := by
  have some : place.Apart tokens := .of_lt (Reading.length_lt read)
  rw [forInitializer_eq] at read ⊢
  split at read
  · cases read
    rfl
  · rcases bind_eq_ok.mp read with ⟨declared, declaredRead, made⟩
    cases made
    rw [Place.tokens_cons]
    dsimp only
    rw [variableDeclaration_placed declaredRead]
    rfl
  · rename_i notSemicolon notVar
    rcases bind_eq_ok.mp read with ⟨value, valueRead, made⟩
    cases made
    split
    · rename_i placed
      exact absurd placed (Place.absent some notSemicolon _ _)
    · rename_i placed
      exact absurd placed (Place.absent some notVar _ _)
    · rw [expressionStatement_placed valueRead]
      rfl

/-- The header of a `for` with other identities and lines. -/
def relabelHeader (r : Relabeling) (header : ForHeader) : ForHeader :=
  ⟨Stmt.relabel? r header.initializer, Expr.relabel? r header.condition,
    Expr.relabel? r header.increment⟩

theorem forHeader_placed {out : Parsed ForHeader} (read : forHeader tokens next = .ok out) :
    forHeader (place.tokens tokens) (place.offset + next) =
      .ok (place.parsed (relabelHeader place.labels) out) := by
  rw [forHeader_eq] at read ⊢
  rcases bind_eq_ok.mp read with ⟨start, startRead, read⟩
  rcases bind_eq_ok.mp read with ⟨first, firstRead, read⟩
  rcases bind_eq_ok.mp read with ⟨condition, conditionRead, read⟩
  rcases bind_eq_ok.mp read with ⟨increment, incrementRead, made⟩
  cases made
  rw [expect_placed startRead]
  dsimp only [bind, Except.bind, Place.parsed]
  rw [forInitializer_placed firstRead]
  dsimp only [Place.parsed]
  rw [optionalThen_placed conditionRead]
  dsimp only [Place.parsed]
  rw [optionalThen_placed incrementRead]
  rfl

theorem parameterList_placed {room : Nat} {tokens : List Token} {next : RefId}
    {out : Parsed (List Identifier)} (read : parameterList room tokens next = .ok out) :
    parameterList room (place.tokens tokens) (place.offset + next) =
      .ok (place.parsed (List.map (Identifier.relabel place.labels)) out) := by
  rw [parameterList_eq] at read ⊢
  cases room with
  | zero => cases read
  | succ room =>
      rcases bind_eq_ok.mp read with ⟨name, nameRead, tail⟩
      rcases name with ⟨name, middle, rest⟩
      dsimp only at tail ⊢
      rw [identifier_placed nameRead]
      dsimp only [bind, Except.bind, Place.parsed]
      split at tail
      · rcases bind_eq_ok.mp tail with ⟨others, othersRead, made⟩
        cases made
        rw [Place.tokens_cons]
        dsimp only
        rw [parameterList_placed othersRead]
        rfl
      · cases tail
        rfl
      · cases tail

theorem parameters_placed {out : Parsed (List Identifier)}
    (read : parameters tokens next = .ok out) :
    parameters (place.tokens tokens) (place.offset + next) =
      .ok (place.parsed (List.map (Identifier.relabel place.labels)) out) := by
  have some : place.Apart tokens := .of_lt (Reading.length_lt read)
  rw [parameters_eq] at read ⊢
  split at read
  · cases read
    rfl
  · rename_i notClosed
    split
    · rename_i placed
      exact absurd placed (Place.absent some notClosed _ _)
    · exact parameterList_placed read

theorem functionHeader_placed {out : Parsed (Identifier × List Identifier)}
    (read : functionHeader tokens next = .ok out) :
    functionHeader (place.tokens tokens) (place.offset + next) =
      .ok (place.parsed (Prod.map (Identifier.relabel place.labels)
        (List.map (Identifier.relabel place.labels))) out) := by
  rw [functionHeader_eq] at read ⊢
  rcases bind_eq_ok.mp read with ⟨name, nameRead, read⟩
  rcases bind_eq_ok.mp read with ⟨start, startRead, read⟩
  rcases bind_eq_ok.mp read with ⟨list, listRead, read⟩
  rcases bind_eq_ok.mp read with ⟨brace, braceRead, made⟩
  cases made
  rw [identifier_placed nameRead]
  dsimp only [bind, Except.bind, Place.parsed]
  rw [expect_placed startRead]
  dsimp only [Place.parsed]
  rw [parameters_placed listRead]
  dsimp only [Place.parsed]
  rw [expect_placed braceRead]
  rfl

/-! ## Statements, declarations and lists of them -/

/-- A block is never at its end before its closing brace. -/
theorem keepsElse_of_block {out : Parsed (List Stmt)} (read : block tokens next = .ok out) :
    place.KeepsElse tokens := by
  intro empty
  subst empty
  rw [block_eq] at read
  cases read

mutual

theorem declaration_placed {tokens : List Token} {next : RefId} {out : Parsed Stmt}
    (read : declaration tokens next = .ok out) (keeps : place.KeepsElse out.rest) :
    declaration (place.tokens tokens) (place.offset + next) =
      .ok (place.parsed (Stmt.relabel place.labels) out) := by
  have some : place.Apart tokens := .of_lt (Reading.length_lt read)
  rw [declaration_eq] at read ⊢
  split at read
  · rename_i line rest
    rcases bind_eq_ok.mp read with ⟨header, headerRead, tail⟩
    rcases bind_eq_ok.mp tail with ⟨body, bodyRead, made⟩
    have headerShorter : header.rest.length < rest.length := Reading.length_lt headerRead
    have bodyPlaced := block_placed bodyRead
    cases made
    rw [Place.tokens_cons]
    dsimp only
    rw [functionHeader_placed headerRead]
    dsimp only [bind, Except.bind, Place.parsed]
    rw [bodyPlaced]
    rfl
  · rw [Place.tokens_cons]
    exact variableDeclaration_placed read
  · rename_i notFun notVar
    have statementPlaced := statement_placed read keeps
    split
    · rename_i placed
      exact absurd placed (Place.absent some notFun _ _)
    · rename_i placed
      exact absurd placed (Place.absent some notVar _ _)
    · exact statementPlaced
termination_by tokens.length * 3 + 1
decreasing_by all_goals subst_vars; simp only [List.length_cons] at *; omega

theorem statement_placed {tokens : List Token} {next : RefId} {out : Parsed Stmt}
    (read : statement tokens next = .ok out) (keeps : place.KeepsElse out.rest) :
    statement (place.tokens tokens) (place.offset + next) =
      .ok (place.parsed (Stmt.relabel place.labels) out) := by
  have some : place.Apart tokens := .of_lt (Reading.length_lt read)
  rw [statement_eq] at read ⊢
  split at read
  · rename_i line rest
    rcases bind_eq_ok.mp read with ⟨header, headerRead, tail⟩
    rcases bind_eq_ok.mp tail with ⟨body, bodyRead, made⟩
    have headerShorter : header.rest.length < rest.length := Reading.length_lt headerRead
    cases made
    have bodyPlaced := statement_placed bodyRead keeps
    rw [Place.tokens_cons]
    dsimp only
    rw [forHeader_placed headerRead]
    dsimp only [bind, Except.bind, Place.parsed]
    rw [bodyPlaced]
    rfl
  · rename_i line rest
    rcases bind_eq_ok.mp read with ⟨test, testRead, tail⟩
    rcases bind_eq_ok.mp tail with ⟨whenTrue, whenTrueRead, tail⟩
    have testShorter : test.rest.length < rest.length := Reading.length_lt testRead
    have trueShorter : whenTrue.rest.length < test.rest.length := Reading.length_lt whenTrueRead
    rcases whenTrue with ⟨value, middle, follows⟩
    dsimp only at tail trueShorter
    rw [Place.tokens_cons]
    dsimp only
    rw [condition_placed testRead]
    dsimp only [bind, Except.bind, Place.parsed]
    split at tail
    · rename_i elseLine behind
      rcases bind_eq_ok.mp tail with ⟨whenFalse, whenFalseRead, made⟩
      cases made
      have falsePlaced := statement_placed whenFalseRead keeps
      rw [statement_placed whenTrueRead nofun]
      dsimp only [Place.parsed]
      rw [Place.tokens_cons]
      dsimp only
      rw [falsePlaced]
      rfl
    · rename_i noElse
      cases tail
      -- If nothing is left here, what stands behind decides; and it does not begin with an `else`.
      rw [statement_placed whenTrueRead keeps]
      dsimp only [Place.parsed]
      split
      · rename_i placed
        exact absurd placed (Place.noElse_tokens keeps noElse _ _)
      · rfl
  · rename_i line rest
    rcases bind_eq_ok.mp read with ⟨test, testRead, tail⟩
    rcases bind_eq_ok.mp tail with ⟨body, bodyRead, made⟩
    have testShorter : test.rest.length < rest.length := Reading.length_lt testRead
    cases made
    have bodyPlaced := statement_placed bodyRead keeps
    rw [Place.tokens_cons]
    dsimp only
    rw [condition_placed testRead]
    dsimp only [bind, Except.bind, Place.parsed]
    rw [bodyPlaced]
    rfl
  · rcases bind_eq_ok.mp read with ⟨value, valueRead, made⟩
    cases made
    rw [Place.tokens_cons]
    dsimp only
    rw [optionalThen_placed valueRead]
    rfl
  · rename_i line rest
    rcases bind_eq_ok.mp read with ⟨body, bodyRead, made⟩
    have bodyPlaced := block_placed bodyRead
    cases made
    rw [Place.tokens_cons]
    dsimp only
    rw [bodyPlaced]
    rfl
  · rcases bind_eq_ok.mp read with ⟨values, valuesRead, made⟩
    cases made
    rw [Place.tokens_cons]
    dsimp only
    rw [printList_placed valuesRead]
    rfl
  · rename_i notFor notIf notWhile notReturn notBrace notPrint
    -- The statement has tokens of its own, so none of the keywords can come first from behind.
    split
    · rename_i placed
      exact absurd placed (Place.absent some notFor _ _)
    · rename_i placed
      exact absurd placed (Place.absent some notIf _ _)
    · rename_i placed
      exact absurd placed (Place.absent some notWhile _ _)
    · rename_i placed
      exact absurd placed (Place.absent some notReturn _ _)
    · rename_i placed
      exact absurd placed (Place.absent some notBrace _ _)
    · rename_i placed
      exact absurd placed (Place.absent some notPrint _ _)
    · exact expressionStatement_placed read
termination_by tokens.length * 3
decreasing_by all_goals subst_vars; simp only [List.length_cons] at *; omega

theorem block_placed {tokens : List Token} {next : RefId} {out : Parsed (List Stmt)}
    (read : block tokens next = .ok out) :
    block (place.tokens tokens) (place.offset + next) =
      .ok (place.parsed (Stmt.relabelAll place.labels) out) := by
  rw [block_eq] at read ⊢
  split at read
  · cases read
  · cases read
    rfl
  · rename_i notEmpty notClosed
    rcases bind_eq_ok.mp read with ⟨first, firstRead, tail⟩
    rcases bind_eq_ok.mp tail with ⟨others, othersRead, made⟩
    have firstShorter : first.rest.length < tokens.length := Reading.length_lt firstRead
    have some : place.Apart tokens := .of_lt firstShorter
    have firstPlaced := declaration_placed firstRead (keepsElse_of_block othersRead)
    have othersPlaced := block_placed othersRead
    cases made
    split
    · rename_i placed
      exact absurd (List.append_eq_nil_iff.mp placed).1 (mt List.map_eq_nil_iff.mp notEmpty)
    · rename_i placed
      exact absurd placed (Place.absent some notClosed _ _)
    · rw [firstPlaced]
      dsimp only [bind, Except.bind, Place.parsed]
      rw [othersPlaced]
      rfl
termination_by tokens.length * 3 + 2

end

end Rule

/-! ## Programs -/

/-- A program in front of another one is read together with it. -/
theorem parse_placed {place : Place} {tokens : List Token} {next after last : RefId}
    {program others : List Stmt} (read : parse tokens next = .ok (program, after))
    (othersRead : parse place.more (place.offset + after) = .ok (others, last)) :
    parse (place.tokens tokens) (place.offset + next) =
      .ok (Stmt.relabelAll place.labels program ++ others, last) := by
  have keeps : NoElse place.more := noElse_program (.of_fits (parse_sound othersRead).2)
  rw [Rule.parse_eq] at read
  split at read
  · cases read
    exact othersRead
  · rename_i notEmpty
    rcases bind_eq_ok.mp read with ⟨first, firstRead, tail⟩
    rcases bind_eq_ok.mp tail with ⟨more, moreRead, made⟩
    have firstShorter : first.rest.length < tokens.length := Reading.length_lt firstRead
    have firstPlaced := Rule.declaration_placed firstRead fun (_ : first.rest = []) => keeps
    cases made
    have morePlaced := parse_placed moreRead othersRead
    rw [Rule.parse_eq]
    split
    · rename_i placed
      exact absurd (List.append_eq_nil_iff.mp placed).1 (mt List.map_eq_nil_iff.mp notEmpty)
    · rw [firstPlaced]
      dsimp only [bind, Except.bind, Place.parsed]
      rw [morePlaced]
      rfl
termination_by tokens.length

/-- A program by itself is read at every place. -/
theorem parse_placed_alone {place : Place} {tokens : List Token} {next after : RefId}
    {program : List Stmt} (read : parse tokens next = .ok (program, after)) (alone : place.more = []) :
    parse (place.tokens tokens) (place.offset + next) =
      .ok (Stmt.relabelAll place.labels program, place.offset + after) := by
  have nothing : parse place.more (place.offset + after) = .ok ([], place.offset + after) := by
    rw [alone, Rule.parse_eq]
  have placed := parse_placed read nothing
  rwa [List.append_nil] at placed

end ScopedScript

import Mathlib.Data.List.Permutation
import ScopedScript.Proofs.Grammar.ExpressionSoundness
import ScopedScript.Proofs.Grammar.ProgramRules
namespace ScopedScript

/-!
# Programs that the parser accepts

The same for statements.  A statement that ends in an `if` without `else` is never followed by one,
because the rule for `if` takes every `else` it meets; therefore the branch before an `else` is never such
a statement, and every `else` is spelled where the parser found it.

The main statement is `parse_sound`: a program that is accepted is well formed, and writing it back gives
the tokens it was read from, each on the line that the tree remembers.  `refs_of_parse` adds that its
references carry identities of their own.
-/

open Spelling

/-- What was read from a place is good, and spells the tokens up to where it ends. -/
structure PartRead {α : Type} (marks : α → List Mark) (refs : α → List RefId) (good : α → Prop)
    (tokens : List Token) (next : RefId) (out : Parsed α) : Prop where
  passage : Passage (marks out.value) (refs out.value) tokens next out.rest out.next
  good : good out.value

/-- What was read from a place is a statement of the grammar that declares nothing, spells the tokens up
to where it ends, and has left no `else` to an `if` inside it. -/
structure StmtRead (tokens : List Token) (next : RefId) (out : Parsed Stmt) : Prop where
  passage : Passage (ofStmt out.value) out.value.refs tokens next out.rest out.next
  wellFormed : out.value.WellFormed
  declaresNothing : out.value.declares = false
  noElse : out.value.endsOpen = true → NoElse out.rest

namespace Rule

open ScopedScript.Parser (ForHeader)

variable {tokens : List Token} {next : RefId}

/-! ## Parts of statements -/

theorem expressionThen_sound {stop : Symbol} {complaint : Complaint} {out : Parsed Expr}
    (read : expressionThen stop complaint tokens next = .ok out) :
    PartRead (fun e => ofExpr e ++ [.symbol stop]) Expr.refs Expr.WellFormed tokens next out := by
  rw [expressionThen_eq] at read
  rcases bind_eq_ok.mp read with ⟨value, valueRead, tail⟩
  rcases bind_eq_ok.mp tail with ⟨close, closeRead, made⟩
  rcases expect_ok closeRead with ⟨follows, same⟩
  have valueSound := expression_sound valueRead
  cases made
  have before := valueSound.passage
  rw [follows, ← same] at before
  exact ⟨before.concat (Mark.fits_symbol stop close.value), valueSound.wellFormed⟩

theorem optionalThen_sound {stop : Symbol} {complaint : Complaint} {out : Parsed (Option Expr)}
    (read : optionalThen stop complaint tokens next = .ok out) :
    PartRead (fun e => ofExpr? e ++ [.symbol stop]) Expr.refs? Expr.WellFormed? tokens next out := by
  rw [optionalThen_eq] at read
  split at read
  · rename_i close closeRead
    rcases expect_ok closeRead with ⟨follows, same⟩
    cases read
    rw [follows, same]
    exact ⟨Passage.one (Mark.fits_symbol stop close.value), trivial⟩
  · rcases bind_eq_ok.mp read with ⟨value, valueRead, made⟩
    have valueSound := expressionThen_sound valueRead
    cases made
    exact ⟨valueSound.passage, valueSound.good⟩

theorem condition_sound {opening closing : Complaint} {out : Parsed Expr}
    (read : condition opening closing tokens next = .ok out) :
    PartRead (fun e => .symbol .leftParen :: (ofExpr e ++ [.symbol .rightParen])) Expr.refs
      Expr.WellFormed tokens next out := by
  rw [condition_eq] at read
  rcases bind_eq_ok.mp read with ⟨start, startRead, tail⟩
  rcases expect_ok startRead with ⟨follows, same⟩
  rw [same] at tail
  have valueSound := expressionThen_sound tail
  rw [follows]
  exact ⟨valueSound.passage.cons (Mark.fits_symbol .leftParen start.value), valueSound.good⟩

theorem printList_sound {tokens : List Token} {next : RefId} {out : Parsed (List Expr)}
    (read : printList tokens next = .ok out) :
    PartRead (fun es => ofExprs es ++ [.symbol .semicolon]) Expr.refsOf
      (fun es => es ≠ [] ∧ Expr.AllWellFormed es) tokens next out := by
  rw [printList_eq] at read
  rcases bind_eq_ok.mp read with ⟨value, valueRead, tail⟩
  have valueShorter : value.rest.length < tokens.length := Reading.length_lt valueRead
  have valueSound := expression_sound valueRead
  rcases value with ⟨value, middle, follows⟩
  dsimp only at tail valueShorter
  split at tail
  · rename_i line behind
    rcases bind_eq_ok.mp tail with ⟨others, othersRead, made⟩
    have othersSound := printList_sound othersRead
    cases made
    refine ⟨?_, List.cons_ne_nil _ _, valueSound.wellFormed, othersSound.good.2⟩
    have joined := valueSound.passage.append
      (othersSound.passage.cons (Mark.fits_symbol .comma line))
    simpa only [ofExprs, ofMoreExprs_of_ne_nil othersSound.good.1, Expr.refsOf, List.append_assoc,
      List.cons_append] using joined
  · rename_i line behind
    cases tail
    refine ⟨?_, List.cons_ne_nil _ _, valueSound.wellFormed, trivial⟩
    have closed := valueSound.passage.concat (Mark.fits_symbol .semicolon line)
    simpa only [ofExprs, ofMoreExprs, Expr.refsOf, List.append_nil] using closed
  · cases tail
termination_by tokens.length
decreasing_by subst_vars; simp only [List.length_cons] at *; omega

theorem initializer_sound {out : Parsed (Option Expr)} (read : initializer tokens next = .ok out) :
    PartRead (fun e => ofInitializer e ++ [.symbol .semicolon]) Expr.refs? Expr.WellFormed? tokens
      next out := by
  rw [initializer_eq] at read
  split at read
  · rename_i line rest
    rcases bind_eq_ok.mp read with ⟨value, valueRead, made⟩
    have valueSound := expressionThen_sound valueRead
    cases made
    exact ⟨valueSound.passage.cons (Mark.fits_symbol .equal line), valueSound.good⟩
  · rcases bind_eq_ok.mp read with ⟨close, closeRead, made⟩
    rcases expect_ok closeRead with ⟨follows, same⟩
    cases made
    rw [follows, same]
    exact ⟨Passage.one (Mark.fits_symbol .semicolon close.value), trivial⟩

/-- A variable declaration is sound together with its keyword. -/
theorem variableDeclaration_sound {out : Parsed Stmt} (line : Nat)
    (read : variableDeclaration tokens next = .ok out) :
    PartRead ofStmt Stmt.refs (fun s => ∃ target value, s = .declare target value ∧ s.WellFormed)
      (⟨.keyword .varWord, line⟩ :: tokens) next out := by
  rw [variableDeclaration_eq] at read
  rcases bind_eq_ok.mp read with ⟨name, nameRead, tail⟩
  rcases bind_eq_ok.mp tail with ⟨value, valueRead, made⟩
  rcases identifier_ok nameRead with ⟨follows, same⟩
  rw [same] at valueRead
  have valueSound := initializer_sound valueRead
  cases made
  rw [follows]
  refine ⟨?_, name.value, value.value, rfl, valueSound.good⟩
  exact (valueSound.passage.cons (Mark.fits_name _ _)).cons (Mark.fits_keyword .varWord line)

theorem expressionStatement_sound {out : Parsed Stmt}
    (read : expressionStatement tokens next = .ok out) :
    PartRead ofStmt Stmt.refs (fun s => ∃ value, s = .expression value ∧ s.WellFormed) tokens next
      out := by
  rw [expressionStatement_eq] at read
  rcases bind_eq_ok.mp read with ⟨value, valueRead, made⟩
  have valueSound := expressionThen_sound valueRead
  cases made
  exact ⟨valueSound.passage, value.value, rfl, valueSound.good⟩

theorem forInitializer_sound {out : Parsed (Option Stmt)}
    (read : forInitializer tokens next = .ok out) :
    PartRead ofForInitializer Stmt.refs? Stmt.InitializerWellFormed tokens next out := by
  rw [forInitializer_eq] at read
  split at read
  · rename_i line rest
    cases read
    exact ⟨Passage.one (Mark.fits_symbol .semicolon line), trivial⟩
  · rename_i line rest
    rcases bind_eq_ok.mp read with ⟨declared, declaredRead, made⟩
    rcases variableDeclaration_sound line declaredRead with ⟨passage, target, value, same, good⟩
    cases made
    refine ⟨passage, ?_⟩
    dsimp only
    rw [same] at good ⊢
    exact good
  · rcases bind_eq_ok.mp read with ⟨started, startedRead, made⟩
    rcases expressionStatement_sound startedRead with ⟨passage, value, same, good⟩
    cases made
    refine ⟨passage, ?_⟩
    dsimp only
    rw [same] at good ⊢
    exact good

/-- The header of a `for` is sound. -/
theorem forHeader_sound {out : Parsed ForHeader} (read : forHeader tokens next = .ok out) :
    PartRead
      (fun header => .symbol .leftParen :: (ofForInitializer header.initializer ++
        (ofExpr? header.condition ++ .symbol .semicolon ::
          (ofExpr? header.increment ++ [.symbol .rightParen]))))
      (fun header => Stmt.refs? header.initializer ++ Expr.refs? header.condition ++
        Expr.refs? header.increment)
      (fun header => Stmt.InitializerWellFormed header.initializer ∧
        Expr.WellFormed? header.condition ∧ Expr.WellFormed? header.increment) tokens next out := by
  rw [forHeader_eq] at read
  rcases bind_eq_ok.mp read with ⟨start, startRead, read⟩
  rcases bind_eq_ok.mp read with ⟨first, firstRead, read⟩
  rcases bind_eq_ok.mp read with ⟨condition, conditionRead, read⟩
  rcases bind_eq_ok.mp read with ⟨increment, incrementRead, made⟩
  rcases expect_ok startRead with ⟨follows, same⟩
  rw [same] at firstRead
  have firstSound := forInitializer_sound firstRead
  have conditionSound := optionalThen_sound conditionRead
  have incrementSound := optionalThen_sound incrementRead
  cases made
  rw [follows]
  refine ⟨?_, firstSound.good, conditionSound.good, incrementSound.good⟩
  have joined := (firstSound.passage.append conditionSound.passage).append incrementSound.passage
  simpa only [List.append_assoc, List.cons_append, List.nil_append] using
    joined.cons (Mark.fits_symbol .leftParen start.value)

theorem parameterList_sound {room : Nat} {tokens : List Token} {next : RefId}
    {out : Parsed (List Identifier)}
    (read : parameterList room tokens next = .ok out) :
    PartRead (fun names => ofNames names ++ [.symbol .rightParen]) (fun _ => [])
      (fun names => names ≠ [] ∧ names.length ≤ room) tokens next out := by
  rw [parameterList_eq] at read
  split at read
  · cases read
  · rename_i room
    rcases bind_eq_ok.mp read with ⟨name, nameRead, tail⟩
    rcases identifier_ok nameRead with ⟨follows, same⟩
    rcases name with ⟨name, middle, rest⟩
    dsimp only at follows same tail
    subst follows same
    split at tail
    · rename_i line behind
      rcases bind_eq_ok.mp tail with ⟨others, othersRead, made⟩
      have othersSound := parameterList_sound othersRead
      cases made
      refine ⟨?_, List.cons_ne_nil _ _, Nat.succ_le_succ othersSound.good.2⟩
      have joined := (othersSound.passage.cons (Mark.fits_symbol .comma line)).cons
        (Mark.fits_name name.name name.line)
      rcases others with ⟨list, after, left⟩
      cases list with
      | nil => exact absurd rfl othersSound.good.1
      | cons first more => exact joined
    · rename_i line behind
      cases tail
      exact ⟨(Passage.one (Mark.fits_symbol .rightParen line)).cons (Mark.fits_name _ _),
        List.cons_ne_nil _ _, Nat.succ_le_succ (Nat.zero_le _)⟩
    · cases tail

theorem parameters_sound {out : Parsed (List Identifier)}
    (read : parameters tokens next = .ok out) :
    PartRead (fun names => ofNames names ++ [.symbol .rightParen]) (fun _ => [])
      (fun names => names.length ≤ maxArity) tokens next out := by
  rw [parameters_eq] at read
  split at read
  · rename_i line rest
    cases read
    exact ⟨Passage.one (Mark.fits_symbol .rightParen line), Nat.zero_le _⟩
  · have listSound := parameterList_sound read
    exact ⟨listSound.passage, listSound.good.2⟩

/-- The header of a function is sound. -/
theorem functionHeader_sound {out : Parsed (Identifier × List Identifier)}
    (read : functionHeader tokens next = .ok out) :
    PartRead
      (fun header => .name header.1 :: .symbol .leftParen ::
        (ofNames header.2 ++ [.symbol .rightParen, .symbol .leftBrace]))
      (fun _ => []) (fun header => header.2.length ≤ maxArity) tokens next out := by
  rw [functionHeader_eq] at read
  rcases bind_eq_ok.mp read with ⟨name, nameRead, read⟩
  rcases bind_eq_ok.mp read with ⟨start, startRead, read⟩
  rcases bind_eq_ok.mp read with ⟨list, listRead, read⟩
  rcases bind_eq_ok.mp read with ⟨brace, braceRead, made⟩
  rcases identifier_ok nameRead with ⟨nameFollows, nameSame⟩
  rcases expect_ok startRead with ⟨startFollows, startSame⟩
  rcases expect_ok braceRead with ⟨braceFollows, braceSame⟩
  rw [startSame, nameSame] at listRead
  have listSound := parameters_sound listRead
  cases made
  have before := listSound.passage
  rw [braceFollows, ← braceSame] at before
  rw [nameFollows, startFollows]
  refine ⟨?_, listSound.good⟩
  have joined := ((before.concat (Mark.fits_symbol .leftBrace brace.value)).cons
    (Mark.fits_symbol .leftParen start.value)).cons (Mark.fits_name name.value.name name.value.line)
  simpa only [List.append_assoc, List.cons_append, List.nil_append] using joined

/-! ## Statements, declarations and lists of them -/

/-- A declaration is sound, and a statement besides declares nothing. -/
theorem variableDeclaration_wellFormed {out : Parsed Stmt} {line : Nat}
    (read : variableDeclaration tokens next = .ok out) :
    PartRead ofStmt Stmt.refs Stmt.WellFormed (⟨.keyword .varWord, line⟩ :: tokens) next out := by
  rcases variableDeclaration_sound line read with ⟨passage, target, value, same, good⟩
  exact ⟨passage, good⟩

mutual

/-- Declarations are sound. -/
theorem declaration_sound {tokens : List Token} {next : RefId} {out : Parsed Stmt}
    (read : declaration tokens next = .ok out) :
    PartRead ofStmt Stmt.refs Stmt.WellFormed tokens next out := by
  rw [declaration_eq] at read
  split at read
  · rename_i line rest
    rcases bind_eq_ok.mp read with ⟨header, headerRead, tail⟩
    rcases bind_eq_ok.mp tail with ⟨body, bodyRead, made⟩
    have headerShorter : header.rest.length < rest.length := Reading.length_lt headerRead
    have headerSound := functionHeader_sound headerRead
    have bodySound := block_sound bodyRead
    cases made
    refine ⟨?_, headerSound.good, bodySound.good⟩
    have joined := (headerSound.passage.append bodySound.passage).cons
      (Mark.fits_keyword .funWord line)
    simpa only [ofStmt, Stmt.refs, List.append_assoc, List.cons_append, List.nil_append] using joined
  · exact variableDeclaration_wellFormed read
  · have sound := statement_sound read
    exact ⟨sound.passage, sound.wellFormed⟩
termination_by tokens.length * 3 + 1
decreasing_by all_goals subst_vars; simp only [List.length_cons] at *; omega

/-- Statements are sound. -/
theorem statement_sound {tokens : List Token} {next : RefId} {out : Parsed Stmt}
    (read : statement tokens next = .ok out) : StmtRead tokens next out := by
  rw [statement_eq] at read
  split at read
  · rename_i line rest
    rcases bind_eq_ok.mp read with ⟨header, headerRead, tail⟩
    rcases bind_eq_ok.mp tail with ⟨body, bodyRead, made⟩
    have headerShorter : header.rest.length < rest.length := Reading.length_lt headerRead
    have headerSound := forHeader_sound headerRead
    have bodySound := statement_sound bodyRead
    cases made
    refine ⟨?_, ⟨headerSound.good.1, headerSound.good.2.1, headerSound.good.2.2,
      bodySound.wellFormed, bodySound.declaresNothing⟩, rfl, bodySound.noElse⟩
    have joined := (headerSound.passage.append bodySound.passage).cons
      (Mark.fits_keyword .forWord line)
    simpa only [ofStmt, Stmt.refs, List.append_assoc, List.cons_append, List.nil_append] using joined
  · rename_i line rest
    rcases bind_eq_ok.mp read with ⟨test, testRead, read⟩
    rcases bind_eq_ok.mp read with ⟨whenTrue, trueRead, read⟩
    have testShorter : test.rest.length < rest.length := Reading.length_lt testRead
    have trueShorter : whenTrue.rest.length < test.rest.length := Reading.length_lt trueRead
    have testSound := condition_sound testRead
    have trueSound := statement_sound trueRead
    have before := (testSound.passage.append trueSound.passage).cons
      (Mark.fits_keyword .ifWord line)
    rcases whenTrue with ⟨whenTrue, middle, follows⟩
    dsimp only at read trueShorter before
    split at read
    · rename_i elseLine behind
      rcases bind_eq_ok.mp read with ⟨whenFalse, falseRead, made⟩
      have falseSound := statement_sound falseRead
      cases made
      -- The branch read first left this `else` alone.
      have closed : whenTrue.endsOpen = false := by
        cases opened : whenTrue.endsOpen with
        | false => rfl
        | true => exact absurd rfl (trueSound.noElse opened elseLine behind)
      refine ⟨?_, ⟨testSound.good, trueSound.wellFormed, trueSound.declaresNothing,
        fun _ => closed, falseSound.wellFormed, falseSound.declaresNothing⟩, rfl,
        falseSound.noElse⟩
      have joined := before.append (falseSound.passage.cons (Mark.fits_keyword .elseWord elseLine))
      simpa only [ofStmt, ofElse, Stmt.refs, Stmt.refs?, List.append_assoc, List.cons_append,
        List.nil_append] using joined
    · rename_i noElse
      cases read
      refine ⟨?_, ⟨testSound.good, trueSound.wellFormed, trueSound.declaresNothing,
        fun impossible => absurd rfl impossible, trivial⟩, rfl, ?_⟩
      · simpa only [ofStmt, ofElse, Stmt.refs, Stmt.refs?, List.append_assoc, List.cons_append,
          List.nil_append, List.append_nil] using before
      · intro _ elseLine behind found
        exact noElse _ _ found
  · rename_i line rest
    rcases bind_eq_ok.mp read with ⟨test, testRead, tail⟩
    rcases bind_eq_ok.mp tail with ⟨body, bodyRead, made⟩
    have testShorter : test.rest.length < rest.length := Reading.length_lt testRead
    have testSound := condition_sound testRead
    have bodySound := statement_sound bodyRead
    cases made
    refine ⟨?_, ⟨testSound.good, bodySound.wellFormed, bodySound.declaresNothing⟩, rfl,
      bodySound.noElse⟩
    have joined := (testSound.passage.append bodySound.passage).cons
      (Mark.fits_keyword .whileWord line)
    simpa only [ofStmt, Stmt.refs, List.append_assoc, List.cons_append, List.nil_append] using joined
  · rename_i line rest
    rcases bind_eq_ok.mp read with ⟨value, valueRead, made⟩
    have valueSound := optionalThen_sound valueRead
    cases made
    exact ⟨valueSound.passage.cons (Mark.fits_keywordAt .returnWord line), valueSound.good, rfl,
      nofun⟩
  · rename_i line rest
    rcases bind_eq_ok.mp read with ⟨body, bodyRead, made⟩
    have bodySound := block_sound bodyRead
    cases made
    exact ⟨bodySound.passage.cons (Mark.fits_symbol .leftBrace line), bodySound.good, rfl, nofun⟩
  · rename_i line rest
    rcases bind_eq_ok.mp read with ⟨values, valuesRead, made⟩
    have valuesSound := printList_sound valuesRead
    cases made
    exact ⟨valuesSound.passage.cons (Mark.fits_keywordAt .printWord line), valuesSound.good, rfl,
      nofun⟩
  · rcases expressionStatement_sound read with ⟨passage, value, same, good⟩
    refine ⟨passage, good, ?_, ?_⟩
    · rw [same]
      rfl
    · rw [same]
      exact nofun
termination_by tokens.length * 3
decreasing_by all_goals subst_vars; simp only [List.length_cons] at *; omega

/-- The declarations of a block are sound, with the brace behind them. -/
theorem block_sound {tokens : List Token} {next : RefId} {out : Parsed (List Stmt)}
    (read : block tokens next = .ok out) :
    PartRead (fun body => ofStmts body ++ [.symbol .rightBrace]) Stmt.refsOf Stmt.AllWellFormed
      tokens next out := by
  rw [block_eq] at read
  split at read
  · cases read
  · rename_i line rest
    cases read
    exact ⟨Passage.one (Mark.fits_symbol .rightBrace line), trivial⟩
  · rcases bind_eq_ok.mp read with ⟨first, firstRead, tail⟩
    rcases bind_eq_ok.mp tail with ⟨others, othersRead, made⟩
    have firstShorter : first.rest.length < tokens.length := Reading.length_lt firstRead
    have firstSound := declaration_sound firstRead
    have othersSound := block_sound othersRead
    cases made
    refine ⟨?_, firstSound.good, othersSound.good⟩
    have joined := firstSound.passage.append othersSound.passage
    simpa only [ofStmts, Stmt.refsOf, List.append_assoc] using joined
termination_by tokens.length * 3 + 2
decreasing_by all_goals omega

end

/-- A program is read up to the end of its tokens. -/
theorem parse_passage {tokens : List Token} {next : RefId} {out : List Stmt × RefId}
    (read : parse tokens next = .ok out) :
    Passage (ofStmts out.1) (Stmt.refsOf out.1) tokens next [] out.2 ∧
      Stmt.AllWellFormed out.1 := by
  rw [parse_eq] at read
  split at read
  · cases read
    exact ⟨Passage.none, trivial⟩
  · rcases bind_eq_ok.mp read with ⟨first, firstRead, tail⟩
    rcases bind_eq_ok.mp tail with ⟨others, othersRead, made⟩
    have firstShorter : first.rest.length < tokens.length := Reading.length_lt firstRead
    have firstSound := declaration_sound firstRead
    have othersSound := parse_passage othersRead
    cases made
    exact ⟨firstSound.passage.append othersSound.1, firstSound.good, othersSound.2⟩
termination_by tokens.length

end Rule

/-- The references of a program have identities of their own, between the first free one and the next
free one. -/
theorem refs_of_parse {tokens : List Token} {next after : RefId} {program : List Stmt}
    (read : parse tokens next = .ok (program, after)) :
    Ascending next (Stmt.refsOf program) after :=
  (Rule.parse_passage read).1.rising

/-- A program that is accepted is well formed, and spells the tokens it was read from. -/
theorem parse_sound {tokens : List Token} {next after : RefId} {program : List Stmt}
    (read : parse tokens next = .ok (program, after)) :
    Stmt.AllWellFormed program ∧ List.Forall₂ Mark.Fits (Spelling.ofStmts program) tokens := by
  rcases Rule.parse_passage read with ⟨passage, wellFormed⟩
  rcases passage.spelled with ⟨used, split, fit⟩
  rw [List.append_nil] at split
  subst split
  exact ⟨wellFormed, fit⟩

/-- The tokens of `if (a) if (b) x = -y; else print f();` on five lines. -/
def nestedIfTokens : List Token :=
  [⟨.keyword .ifWord, 1⟩, ⟨.symbol .leftParen, 1⟩, ⟨.identifier "a", 1⟩, ⟨.symbol .rightParen, 1⟩,
    ⟨.keyword .ifWord, 2⟩, ⟨.symbol .leftParen, 2⟩, ⟨.identifier "b", 2⟩, ⟨.symbol .rightParen, 2⟩,
    ⟨.identifier "x", 3⟩, ⟨.symbol .equal, 3⟩, ⟨.symbol .minus, 3⟩, ⟨.identifier "y", 3⟩,
    ⟨.symbol .semicolon, 3⟩, ⟨.keyword .elseWord, 4⟩, ⟨.keyword .printWord, 4⟩,
    ⟨.identifier "f", 4⟩, ⟨.symbol .leftParen, 4⟩, ⟨.symbol .rightParen, 5⟩, ⟨.symbol .semicolon, 5⟩]

/-- What these tokens spell: the `else` belongs to the inner `if`. -/
def nestedIf : Stmt :=
  .branch (.variable 0 ⟨"a", 1⟩)
    (.branch (.variable 1 ⟨"b", 2⟩)
      (.expression (.assign 4 ⟨"x", 3⟩ (.unary .negate 3 (.variable 3 ⟨"y", 3⟩))))
      (some (.print 4 [.call (.variable 5 ⟨"f", 4⟩) 5 []]))) none

theorem parse_sound_nestedIf :
    parse nestedIfTokens 0 = .ok ([nestedIf], 6) ∧ Stmt.AllWellFormed [nestedIf] ∧
      List.Forall₂ Mark.Fits (Spelling.ofStmts [nestedIf]) nestedIfTokens := by
  have read : parse nestedIfTokens 0 = .ok ([nestedIf], 6) := by cbv
  exact ⟨read, parse_sound read⟩

end ScopedScript

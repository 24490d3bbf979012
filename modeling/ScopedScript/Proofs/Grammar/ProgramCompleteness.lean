import ScopedScript.Proofs.Grammar.ExpressionCompleteness
import ScopedScript.Proofs.Grammar.ProgramSoundness
import ScopedScript.Proofs.Grammar.Writing
namespace ScopedScript

/-!
# Programs that the parser must accept

Every part of a statement ends with a symbol of its own, so what stands behind a part does not matter to
it: the rule of the part `Answers` the marks of the part.  A statement is the exception.  When it ends in
an `if` without `else`, an `else` behind it would be taken for its own, so the tokens behind it must not
begin with one; nothing in a list of statements does.

The main statement is `parse_complete`: every well-formed program can be written down, and however it is
written down, it is read back up to lines and identities.
-/

open Spelling

/-- Tokens that show the marks are read as something good, whatever stands behind them. -/
def Answers {α : Type} (rule : List Token → RefId → Except SyntaxError (Parsed α))
    (marks : List Mark) (good : α → Prop) : Prop :=
  ∀ tokens, Shows marks tokens → ∀ rest next, ∃ read after, good read ∧
    rule (tokens ++ rest) next = .ok ⟨read, after, rest⟩

namespace Rule

open ScopedScript.Parser (ForHeader)

/-! ## Parts of statements -/

theorem expect_symbol (s : Symbol) (complaint : Complaint) (line : Nat) (rest : List Token)
    (next : RefId) : expect s complaint (⟨.symbol s, line⟩ :: rest) next = .ok ⟨line, next, rest⟩ := by
  rw [expect_eq]
  dsimp only
  rw [if_pos rfl]

/-- A symbol that closes an expression is not found where an expression begins. -/
theorem expect_starts {s : Symbol} (closing : s.closes = true) (complaint : Complaint) {token : Token}
    (starts : token.kind.glyph.startsExpr = true) (rest : List Token) (next : RefId) :
    ∃ error, expect s complaint (token :: rest) next = .error error := by
  rw [expect_eq]
  split
  · rename_i found line others same
    cases same
    rw [if_neg]
    · exact ⟨_, rfl⟩
    · intro same
      subst same
      exact absurd (starts.symm.trans (Symbol.startsExpr_of_closes closing)) nofun
  · exact ⟨_, rfl⟩

theorem expressionThen_answers {e : Expr} (wellFormed : e.WellFormed) {stop : Symbol}
    (closing : stop.closes = true) (complaint : Complaint) :
    Answers (expressionThen stop complaint) (ofExpr e ++ [.symbol stop])
      (fun read => read.bare = e.bare) := by
  intro tokens shown rest next
  rcases shown.split with ⟨front, last, same, shownFront, shownLast⟩
  rcases shownLast.symbol rfl with ⟨line, none, sameLast, empty⟩
  cases empty.eq_nil
  subst same sameLast
  rcases (Expr.reads e wellFormed).whole front shownFront stop line rest next closing with
    ⟨read, after, alike, answer⟩
  refine ⟨read, after, alike, ?_⟩
  rw [List.append_assoc, List.cons_append, List.nil_append, expressionThen_eq, answer]
  dsimp only [bind, Except.bind]
  rw [expect_symbol]

theorem optionalThen_answers {e : Option Expr} (wellFormed : Expr.WellFormed? e) {stop : Symbol}
    (closing : stop.closes = true) (complaint : Complaint) :
    Answers (optionalThen stop complaint) (ofExpr? e ++ [.symbol stop])
      (fun read => Expr.bare? read = Expr.bare? e) := by
  intro tokens shown rest next
  cases e with
  | none =>
      rcases shown.symbol rfl with ⟨line, none, same, empty⟩
      cases empty.eq_nil
      subst same
      refine ⟨none, next, rfl, ?_⟩
      rw [List.cons_append, List.nil_append, optionalThen_eq, expect_symbol]
  | some e =>
      rcases expressionThen_answers wellFormed closing complaint tokens shown rest next with
        ⟨read, after, alike, answer⟩
      rcases shown.split with ⟨front, last, same, shownFront, _⟩
      rcases shownFront.startsExpr with ⟨token, others, sameFront, starts⟩
      subst same sameFront
      rcases expect_starts closing complaint starts (others ++ last ++ rest) next with
        ⟨error, refused⟩
      refine ⟨some read, after, congrArg some alike, ?_⟩
      rw [optionalThen_eq]
      rw [List.cons_append, List.cons_append] at answer ⊢
      rw [refused, answer]
      rfl

theorem condition_answers {e : Expr} (wellFormed : e.WellFormed) (opening closing : Complaint) :
    Answers (condition opening closing) (.symbol .leftParen :: (ofExpr e ++ [.symbol .rightParen]))
      (fun read => read.bare = e.bare) := by
  intro tokens shown rest next
  rcases shown.symbol rfl with ⟨line, tail, same, shownTail⟩
  subst same
  rcases expressionThen_answers wellFormed rfl closing tail shownTail rest next with
    ⟨read, after, alike, answer⟩
  refine ⟨read, after, alike, ?_⟩
  rw [List.cons_append, condition_eq, expect_symbol]
  exact answer

theorem printList_answers : ∀ es : List Expr, es ≠ [] → Expr.AllWellFormed es →
    Answers printList (ofExprs es ++ [.symbol .semicolon])
      (fun read => Expr.bareAll read = Expr.bareAll es) := by
  intro es notEmpty wellFormed
  induction es with
  | nil => exact absurd rfl notEmpty
  | cons first others inductionHypothesis =>
      intro tokens shown rest next
      rw [ofExprs, List.append_assoc] at shown
      rcases shown.split with ⟨front, back, same, shownFront, shownBack⟩
      subst same
      cases others with
      | nil =>
          rcases shownBack.symbol rfl with ⟨line, none, sameBack, empty⟩
          cases empty.eq_nil
          subst sameBack
          rcases (Expr.reads first wellFormed.1).whole front shownFront .semicolon line rest next rfl
            with ⟨read, after, alike, answer⟩
          refine ⟨[read], after, ?_, ?_⟩
          · dsimp only
            rw [Expr.bareAll, Expr.bareAll, alike]
            rfl
          · rw [List.append_assoc, List.cons_append, List.nil_append, printList_eq, answer]
            rfl
      | cons second more =>
          rcases shownBack.symbol rfl with ⟨line, tail, sameBack, shownTail⟩
          subst sameBack
          rcases (Expr.reads first wellFormed.1).whole front shownFront .comma line (tail ++ rest) next
            rfl with ⟨read, middle, alike, answer⟩
          rcases inductionHypothesis (List.cons_ne_nil _ _) wellFormed.2 tail shownTail rest middle with
            ⟨readToo, after, alikeToo, answerToo⟩
          refine ⟨read :: readToo, after, ?_, ?_⟩
          · dsimp only
            rw [Expr.bareAll, Expr.bareAll, alike, alikeToo]
          · rw [List.append_assoc, List.cons_append, printList_eq, answer]
            dsimp only [bind, Except.bind]
            rw [answerToo]

theorem initializer_answers {e : Option Expr} (wellFormed : Expr.WellFormed? e) :
    Answers initializer (ofInitializer e ++ [.symbol .semicolon])
      (fun read => Expr.bare? read = Expr.bare? e) := by
  intro tokens shown rest next
  cases e with
  | none =>
      rcases shown.symbol rfl with ⟨line, none, same, empty⟩
      cases empty.eq_nil
      subst same
      refine ⟨none, next, rfl, ?_⟩
      rw [List.cons_append, List.nil_append, initializer_eq]
      dsimp only
      rw [expect_symbol]
      rfl
  | some e =>
      rcases shown.symbol rfl with ⟨line, tail, same, shownTail⟩
      subst same
      rcases expressionThen_answers wellFormed rfl .declarationEnd tail shownTail rest next with
        ⟨read, after, alike, answer⟩
      refine ⟨some read, after, congrArg some alike, ?_⟩
      rw [List.cons_append, initializer_eq]
      dsimp only
      rw [answer]
      rfl

theorem identifier_name (complaint : Complaint) (name : String) (line : Nat) (rest : List Token)
    (next : RefId) :
    identifier complaint (⟨.identifier name, line⟩ :: rest) next = .ok ⟨⟨name, line⟩, next, rest⟩ := by
  rw [identifier_eq]

theorem variableDeclaration_answers (target : Identifier) {value : Option Expr}
    (wellFormed : Expr.WellFormed? value) :
    Answers variableDeclaration (.name target :: (ofInitializer value ++ [.symbol .semicolon]))
      (fun read => read.bare = (Stmt.declare target value).bare) := by
  intro tokens shown rest next
  rcases shown.name with ⟨line, tail, same, shownTail⟩
  subst same
  rcases initializer_answers wellFormed tail shownTail rest next with ⟨read, after, alike, answer⟩
  refine ⟨.declare ⟨target.name, line⟩ read, after, ?_, ?_⟩
  · dsimp only
    rw [Stmt.bare, Stmt.bare, alike]
    rfl
  · rw [List.cons_append, variableDeclaration_eq, identifier_name]
    dsimp only [bind, Except.bind]
    rw [answer]

theorem expressionStatement_answers {e : Expr} (wellFormed : e.WellFormed) :
    Answers expressionStatement (ofStmt (.expression e))
      (fun read => read.bare = (Stmt.expression e).bare) := by
  intro tokens shown rest next
  rcases expressionThen_answers wellFormed rfl .expressionEnd tokens shown rest next with
    ⟨read, after, alike, answer⟩
  refine ⟨.expression read, after, congrArg Stmt.expression alike, ?_⟩
  rw [expressionStatement_eq, answer]
  rfl

theorem forInitializer_answers {first : Option Stmt} (wellFormed : Stmt.InitializerWellFormed first) :
    Answers forInitializer (ofForInitializer first)
      (fun read => Stmt.bare? read = Stmt.bare? first) := by
  intro tokens shown rest next
  match first, wellFormed with
  | none, _ =>
      rcases shown.symbol rfl with ⟨line, none, same, empty⟩
      cases empty.eq_nil
      subst same
      refine ⟨none, next, rfl, ?_⟩
      rw [List.cons_append, List.nil_append, forInitializer_eq]
  | some (.declare target value), wellFormed =>
      rcases shown.keyword rfl with ⟨line, tail, same, shownTail⟩
      subst same
      rcases variableDeclaration_answers target wellFormed tail shownTail rest next with
        ⟨read, after, alike, answer⟩
      refine ⟨some read, after, congrArg some alike, ?_⟩
      rw [List.cons_append, forInitializer_eq]
      dsimp only
      rw [answer]
      rfl
  | some (.expression e), wellFormed =>
      rcases expressionStatement_answers wellFormed tokens shown rest next with
        ⟨read, after, alike, answer⟩
      refine ⟨some read, after, congrArg some alike, ?_⟩
      rcases shown.split with ⟨front, last, same, shownFront, _⟩
      rcases shownFront.startsExpr with ⟨token, others, sameFront, starts⟩
      subst same sameFront
      rw [List.cons_append, List.cons_append] at answer ⊢
      rw [forInitializer_eq]
      split
      · rename_i same
        cases same
        cases starts
      · rename_i same
        cases same
        cases starts
      · rw [answer]
        rfl

/-- The marks between the parentheses of a `for`, in the parts that its rules read. -/
def forHeaderMarks (first : Option Stmt) (condition increment : Option Expr) : List Mark :=
  .symbol .leftParen :: (ofForInitializer first ++
    ((ofExpr? condition ++ [.symbol .semicolon]) ++ (ofExpr? increment ++ [.symbol .rightParen])))

theorem forHeader_answers {first : Option Stmt} {condition increment : Option Expr}
    (firstFormed : Stmt.InitializerWellFormed first) (conditionFormed : Expr.WellFormed? condition)
    (incrementFormed : Expr.WellFormed? increment) :
    Answers forHeader (forHeaderMarks first condition increment)
      (fun read => Stmt.bare? read.initializer = Stmt.bare? first ∧
        Expr.bare? read.condition = Expr.bare? condition ∧
        Expr.bare? read.increment = Expr.bare? increment) := by
  intro tokens shown rest next
  rcases shown.symbol rfl with ⟨line, tail, same, shownTail⟩
  rcases shownTail.split with ⟨front, back, sameTail, shownFront, shownBack⟩
  rcases shownBack.split with ⟨middle, last, sameBack, shownMiddle, shownLast⟩
  subst same sameTail sameBack
  rcases forInitializer_answers firstFormed front shownFront (middle ++ (last ++ rest)) next with
    ⟨firstRead, afterFirst, firstAlike, firstAnswer⟩
  rcases optionalThen_answers conditionFormed rfl .forConditionEnd middle shownMiddle (last ++ rest)
    afterFirst with ⟨conditionRead, afterCondition, conditionAlike, conditionAnswer⟩
  rcases optionalThen_answers incrementFormed rfl .forClose last shownLast rest afterCondition with
    ⟨incrementRead, after, incrementAlike, incrementAnswer⟩
  refine ⟨⟨firstRead, conditionRead, incrementRead⟩, after,
    ⟨firstAlike, conditionAlike, incrementAlike⟩, ?_⟩
  rw [List.cons_append, List.append_assoc, List.append_assoc, forHeader_eq, expect_symbol]
  dsimp only [bind, Except.bind]
  rw [firstAnswer]
  dsimp only
  rw [conditionAnswer]
  dsimp only
  rw [incrementAnswer]

theorem parameterList_answers (names : List Identifier) (notEmpty : names ≠ []) (room : Nat)
    (few : names.length ≤ room) :
    Answers (parameterList room) (ofNames names ++ [.symbol .rightParen])
      (fun read => read.map Identifier.bare = names.map Identifier.bare) := by
  induction names generalizing room with
  | nil => exact absurd rfl notEmpty
  | cons name others inductionHypothesis =>
      intro tokens shown rest next
      rcases shown.name with ⟨line, tail, same, shownTail⟩
      subst same
      cases room with
      | zero => cases few
      | succ room =>
          cases others with
          | nil =>
              rcases shownTail.symbol rfl with ⟨closeLine, none, sameTail, empty⟩
              cases empty.eq_nil
              subst sameTail
              refine ⟨[⟨name.name, line⟩], next, rfl, ?_⟩
              rw [List.cons_append, List.cons_append, parameterList_eq]
              dsimp only
              rw [identifier_name]
              rfl
          | cons second more =>
              rcases shownTail.symbol rfl with ⟨commaLine, back, sameTail, shownBack⟩
              subst sameTail
              rcases inductionHypothesis (List.cons_ne_nil _ _) room (Nat.le_of_succ_le_succ few) back shownBack rest
                next with ⟨read, after, alike, answer⟩
              refine ⟨⟨name.name, line⟩ :: read, after, ?_, ?_⟩
              · exact congrArg (name.bare :: ·) alike
              · rw [List.cons_append, List.cons_append, parameterList_eq]
                dsimp only
                rw [identifier_name]
                dsimp only [bind, Except.bind]
                rw [answer]

theorem parameters_answers {names : List Identifier} (few : names.length ≤ maxArity) :
    Answers parameters (ofNames names ++ [.symbol .rightParen])
      (fun read => read.map Identifier.bare = names.map Identifier.bare) := by
  intro tokens shown rest next
  cases names with
  | nil =>
      rcases shown.symbol rfl with ⟨line, none, same, empty⟩
      cases empty.eq_nil
      subst same
      refine ⟨[], next, rfl, ?_⟩
      rw [List.cons_append, List.nil_append, parameters_eq]
  | cons name others =>
      rcases parameterList_answers (name :: others) (List.cons_ne_nil _ _) maxArity few tokens shown rest next
        with ⟨read, after, alike, answer⟩
      rcases shown.name with ⟨line, tail, same, _⟩
      subst same
      refine ⟨read, after, alike, ?_⟩
      rw [← answer, List.cons_append, parameters_eq]

/-- The marks of a function up to the brace that opens its body, in the parts that its rules read. -/
def functionHeaderMarks (target : Identifier) (names : List Identifier) : List Mark :=
  .name target :: .symbol .leftParen ::
    ((ofNames names ++ [.symbol .rightParen]) ++ [.symbol .leftBrace])

theorem functionHeader_answers (target : Identifier) {names : List Identifier}
    (few : names.length ≤ maxArity) :
    Answers functionHeader (functionHeaderMarks target names)
      (fun read => read.1.bare = target.bare ∧
        read.2.map Identifier.bare = names.map Identifier.bare) := by
  intro tokens shown rest next
  rcases shown.name with ⟨line, tail, same, shownTail⟩
  rcases shownTail.symbol rfl with ⟨openLine, inside, sameTail, shownInside⟩
  rcases shownInside.split with ⟨list, last, sameInside, shownList, shownLast⟩
  rcases shownLast.symbol rfl with ⟨braceLine, none, sameLast, empty⟩
  cases empty.eq_nil
  subst same sameTail sameInside sameLast
  rcases parameters_answers few list shownList (⟨.symbol .leftBrace, braceLine⟩ :: rest) next with
    ⟨read, after, alike, answer⟩
  refine ⟨(⟨target.name, line⟩, read), after, ⟨rfl, alike⟩, ?_⟩
  rw [List.cons_append, List.cons_append, List.append_assoc, List.cons_append, List.nil_append,
    functionHeader_eq, identifier_name]
  dsimp only [bind, Except.bind]
  rw [expect_symbol]
  dsimp only
  rw [answer]
  dsimp only
  rw [expect_symbol]

end Rule

namespace Stmt

open Rule

/-! ## Statements -/

/-- A statement is read by a rule, unless an `else` behind it belongs to an `if` inside it. -/
def ReadsBy (rule : List Token → RefId → Except SyntaxError (Parsed Stmt)) (s : Stmt) : Prop :=
  ∀ tokens, Shows (ofStmt s) tokens → ∀ rest next, (s.endsOpen = true → NoElse rest) →
    ∃ read after, read.bare = s.bare ∧ rule (tokens ++ rest) next = .ok ⟨read, after, rest⟩

/-- The declarations of a block are read with the brace behind them. -/
def ReadsBlock (body : List Stmt) : Prop :=
  Answers Rule.block (ofStmts body ++ [.symbol .rightBrace]) (fun read => bareAll read = bareAll body)

/-- What is read whatever stands behind it needs no care about an `else`. -/
theorem readsBy_of_answers {rule : List Token → RefId → Except SyntaxError (Parsed Stmt)} {s : Stmt}
    (answers : Answers rule (ofStmt s) (fun read => read.bare = s.bare)) : ReadsBy rule s :=
  fun tokens shown rest next _ => answers tokens shown rest next

theorem readsBy_expression {e : Expr} (wellFormed : e.WellFormed) :
    ReadsBy statement (.expression e) := by
  refine readsBy_of_answers fun tokens shown rest next => ?_
  rcases expressionStatement_answers wellFormed tokens shown rest next with
    ⟨read, after, alike, answer⟩
  refine ⟨read, after, alike, ?_⟩
  rcases shown.split with ⟨front, last, same, shownFront, _⟩
  rcases shownFront.startsExpr with ⟨token, others, sameFront, starts⟩
  subst same sameFront
  rw [List.cons_append, List.cons_append] at answer ⊢
  rw [statement_eq]
  split
  case h_7 => exact answer
  all_goals
    rename_i same
    cases same
    cases starts

theorem readsBy_print {values : List Expr} (notEmpty : values ≠ [])
    (wellFormed : Expr.AllWellFormed values) (line : Nat) :
    ReadsBy statement (.print line values) := by
  refine readsBy_of_answers fun tokens shown rest next => ?_
  rcases shown.keyword rfl with ⟨wordLine, tail, same, shownTail⟩
  subst same
  rcases printList_answers values notEmpty wellFormed tail shownTail rest next with
    ⟨read, after, alike, answer⟩
  refine ⟨.print wordLine read, after, congrArg (Stmt.print 0) alike, ?_⟩
  rw [List.cons_append, statement_eq]
  dsimp only
  rw [answer]
  rfl

theorem readsBy_giveBack {value : Option Expr} (wellFormed : Expr.WellFormed? value) (line : Nat) :
    ReadsBy statement (.giveBack line value) := by
  refine readsBy_of_answers fun tokens shown rest next => ?_
  rcases shown.keyword rfl with ⟨wordLine, tail, same, shownTail⟩
  subst same
  rcases optionalThen_answers wellFormed rfl .returnEnd tail shownTail rest next with
    ⟨read, after, alike, answer⟩
  refine ⟨.giveBack wordLine read, after, congrArg (Stmt.giveBack 0) alike, ?_⟩
  rw [List.cons_append, statement_eq]
  dsimp only
  rw [answer]
  rfl

theorem readsBy_block {body : List Stmt} (reads : ReadsBlock body) :
    ReadsBy statement (.block body) := by
  refine readsBy_of_answers fun tokens shown rest next => ?_
  rcases shown.symbol rfl with ⟨line, tail, same, shownTail⟩
  subst same
  rcases reads tail shownTail rest next with ⟨read, after, alike, answer⟩
  refine ⟨.block read, after, congrArg Stmt.block alike, ?_⟩
  rw [List.cons_append, statement_eq]
  dsimp only
  rw [answer]
  rfl

/-- The marks of a condition and of what it decides on come in these two parts. -/
theorem conditional_marks (condition : Expr) (others : List Mark) :
    .symbol .leftParen :: (ofExpr condition ++ .symbol .rightParen :: others) =
      (.symbol .leftParen :: (ofExpr condition ++ [.symbol .rightParen])) ++ others := by
  rw [List.cons_append, List.append_assoc, List.cons_append, List.nil_append]

theorem readsBy_whileLoop {condition : Expr} {body : Stmt} (wellFormed : condition.WellFormed)
    (reads : ReadsBy statement body) : ReadsBy statement (.whileLoop condition body) := by
  intro tokens shown rest next noElse
  rcases shown.keyword rfl with ⟨line, tail, same, shownTail⟩
  rw [conditional_marks] at shownTail
  rcases shownTail.split with ⟨front, back, sameTail, shownFront, shownBack⟩
  subst same sameTail
  rcases condition_answers wellFormed .whileOpen .whileClose front shownFront (back ++ rest) next with
    ⟨test, middle, testAlike, testAnswer⟩
  rcases reads back shownBack rest middle noElse with ⟨read, after, alike, answer⟩
  refine ⟨.whileLoop test read, after, ?_, ?_⟩
  · rw [bare, bare, testAlike, alike]
  · rw [List.cons_append, List.append_assoc, statement_eq]
    dsimp only
    rw [testAnswer]
    dsimp only [bind, Except.bind]
    rw [answer]

theorem readsBy_forLoop {first : Option Stmt} {condition increment : Option Expr} {body : Stmt}
    (firstFormed : InitializerWellFormed first) (conditionFormed : Expr.WellFormed? condition)
    (incrementFormed : Expr.WellFormed? increment) (reads : ReadsBy statement body) :
    ReadsBy statement (.forLoop first condition increment body) := by
  intro tokens shown rest next noElse
  have arranged : ofStmt (.forLoop first condition increment body) =
      .keyword .forWord :: (forHeaderMarks first condition increment ++ ofStmt body) := by
    simp only [ofStmt, forHeaderMarks, List.append_assoc, List.cons_append, List.nil_append]
  rw [arranged] at shown
  rcases shown.keyword rfl with ⟨line, tail, same, shownTail⟩
  rcases shownTail.split with ⟨front, back, sameTail, shownFront, shownBack⟩
  subst same sameTail
  rcases forHeader_answers firstFormed conditionFormed incrementFormed front shownFront (back ++ rest)
    next with ⟨header, middle, ⟨firstAlike, conditionAlike, incrementAlike⟩, headerAnswer⟩
  rcases reads back shownBack rest middle noElse with ⟨read, after, alike, answer⟩
  refine ⟨.forLoop header.initializer header.condition header.increment read, after, ?_, ?_⟩
  · rw [bare, bare, firstAlike, conditionAlike, incrementAlike, alike]
  · rw [List.cons_append, List.append_assoc, statement_eq]
    dsimp only
    rw [headerAnswer]
    dsimp only [bind, Except.bind]
    rw [answer]

/-- An `if` alone takes no `else`, because none follows. -/
theorem readsBy_branch_none {condition : Expr} {whenTrue : Stmt} (wellFormed : condition.WellFormed)
    (reads : ReadsBy statement whenTrue) : ReadsBy statement (.branch condition whenTrue none) := by
  intro tokens shown rest next noElse
  rcases shown.keyword rfl with ⟨line, tail, same, shownTail⟩
  rw [conditional_marks] at shownTail
  rcases shownTail.split with ⟨front, back, sameTail, shownFront, shownBack⟩
  rw [ofElse, List.append_nil] at shownBack
  subst same sameTail
  rcases condition_answers wellFormed .ifOpen .ifClose front shownFront (back ++ rest) next with
    ⟨test, middle, testAlike, testAnswer⟩
  rcases reads back shownBack rest middle (fun _ => noElse rfl) with ⟨read, after, alike, answer⟩
  refine ⟨.branch test read none, after, ?_, ?_⟩
  · rw [bare, bare, testAlike, alike]
  · rw [List.cons_append, List.append_assoc, statement_eq]
    dsimp only
    rw [testAnswer]
    dsimp only [bind, Except.bind]
    rw [answer]
    dsimp only
    split
    · exact absurd rfl (noElse rfl _ _)
    · rfl

/-- An `if` with an `else` takes its own, because the branch before it leaves it alone. -/
theorem readsBy_branch_some {condition : Expr} {whenTrue whenFalse : Stmt}
    (wellFormed : condition.WellFormed) (closed : whenTrue.endsOpen = false)
    (readsTrue : ReadsBy statement whenTrue) (readsFalse : ReadsBy statement whenFalse) :
    ReadsBy statement (.branch condition whenTrue (some whenFalse)) := by
  intro tokens shown rest next noElse
  rcases shown.keyword rfl with ⟨line, tail, same, shownTail⟩
  rw [conditional_marks] at shownTail
  rcases shownTail.split with ⟨front, back, sameTail, shownFront, shownBack⟩
  rcases shownBack.split with ⟨middleTokens, last, sameBack, shownMiddle, shownLast⟩
  rcases shownLast.keyword rfl with ⟨elseLine, others, sameLast, shownOthers⟩
  subst same sameTail sameBack sameLast
  rcases condition_answers wellFormed .ifOpen .ifClose front shownFront
    (middleTokens ++ ⟨.keyword .elseWord, elseLine⟩ :: (others ++ rest)) next with
    ⟨test, afterTest, testAlike, testAnswer⟩
  rcases readsTrue middleTokens shownMiddle (⟨.keyword .elseWord, elseLine⟩ :: (others ++ rest))
    afterTest (fun opened => absurd (closed.symm.trans opened) nofun) with
    ⟨trueRead, afterTrue, trueAlike, trueAnswer⟩
  rcases readsFalse others shownOthers rest afterTrue noElse with
    ⟨falseRead, after, falseAlike, falseAnswer⟩
  refine ⟨.branch test trueRead (some falseRead), after, ?_, ?_⟩
  · rw [bare, bare, testAlike, trueAlike, bare?, bare?, falseAlike]
  · rw [List.cons_append, List.append_assoc, List.append_assoc, List.cons_append, statement_eq]
    dsimp only
    rw [testAnswer]
    dsimp only [bind, Except.bind]
    rw [trueAnswer]
    dsimp only
    rw [falseAnswer]

/-! ## Declarations and lists of them -/

theorem readsBy_declare (target : Identifier) {value : Option Expr}
    (wellFormed : Expr.WellFormed? value) : ReadsBy declaration (.declare target value) := by
  refine readsBy_of_answers fun tokens shown rest next => ?_
  rcases shown.keyword rfl with ⟨line, tail, same, shownTail⟩
  subst same
  rcases variableDeclaration_answers target wellFormed tail shownTail rest next with
    ⟨read, after, alike, answer⟩
  refine ⟨read, after, alike, ?_⟩
  rw [List.cons_append, declaration_eq]
  exact answer

theorem readsBy_function (target : Identifier) {names : List Identifier} {body : List Stmt}
    (few : names.length ≤ maxArity) (reads : ReadsBlock body) :
    ReadsBy declaration (.function target names body) := by
  refine readsBy_of_answers fun tokens shown rest next => ?_
  have arranged : ofStmt (.function target names body) =
      .keyword .funWord :: (functionHeaderMarks target names ++
        (ofStmts body ++ [.symbol .rightBrace])) := by
    simp only [ofStmt, functionHeaderMarks, List.append_assoc, List.cons_append, List.nil_append]
  rw [arranged] at shown
  rcases shown.keyword rfl with ⟨line, tail, same, shownTail⟩
  rcases shownTail.split with ⟨front, back, sameTail, shownFront, shownBack⟩
  subst same sameTail
  rcases functionHeader_answers target few front shownFront (back ++ rest) next with
    ⟨header, middle, ⟨nameAlike, namesAlike⟩, headerAnswer⟩
  rcases reads back shownBack rest middle with ⟨read, after, alike, answer⟩
  refine ⟨.function header.1 header.2 read, after, ?_, ?_⟩
  · dsimp only
    rw [bare, bare, nameAlike, namesAlike, alike]
  · rw [List.cons_append, List.append_assoc, declaration_eq]
    dsimp only
    rw [headerAnswer]
    dsimp only [bind, Except.bind]
    rw [answer]

/-- A statement that declares nothing is read as a declaration, too. -/
theorem readsBy_declaration {s : Stmt} (declaresNothing : s.declares = false)
    (reads : ReadsBy statement s) : ReadsBy declaration s := by
  intro tokens shown rest next noElse
  rcases reads tokens shown rest next noElse with ⟨read, after, alike, answer⟩
  refine ⟨read, after, alike, ?_⟩
  rcases shown.startsStmt declaresNothing with ⟨token, others, same, starts⟩
  subst same
  rw [List.cons_append] at answer ⊢
  rw [declaration_eq]
  split
  case h_3 => exact answer
  all_goals
    rename_i same
    cases same
    cases starts

/-- Neither the end of a block nor a statement in it is an `else`. -/
theorem noElse_block {body : List Stmt} {tokens : List Token}
    (shown : Shows (ofStmts body ++ [.symbol .rightBrace]) tokens) (rest : List Token) :
    NoElse (tokens ++ rest) := by
  intro line others same
  cases body with
  | nil =>
      rcases shown.symbol rfl with ⟨closeLine, behind, sameTokens, _⟩
      subst sameTokens
      cases same
  | cons first more =>
      rw [ofStmts, List.append_assoc] at shown
      rcases shown.split with ⟨front, back, sameTokens, shownFront, _⟩
      rcases shownFront.startsDeclaration with ⟨token, behind, sameFront, starts⟩
      subst sameTokens sameFront
      cases same
      cases starts

theorem readsBlock_nil : ReadsBlock [] := by
  intro tokens shown rest next
  rcases shown.symbol rfl with ⟨line, none, same, empty⟩
  cases empty.eq_nil
  subst same
  refine ⟨[], next, rfl, ?_⟩
  rw [List.cons_append, List.nil_append, block_eq]

theorem readsBlock_cons {first : Stmt} {others : List Stmt} (reads : ReadsBy declaration first)
    (readsOthers : ReadsBlock others) : ReadsBlock (first :: others) := by
  intro tokens shown rest next
  rw [ofStmts, List.append_assoc] at shown
  rcases shown.split with ⟨front, back, same, shownFront, shownBack⟩
  subst same
  rcases reads front shownFront (back ++ rest) next (fun _ => noElse_block shownBack rest) with
    ⟨read, middle, alike, answer⟩
  rcases readsOthers back shownBack rest middle with ⟨readToo, after, alikeToo, answerToo⟩
  refine ⟨read :: readToo, after, ?_, ?_⟩
  · dsimp only
    rw [bareAll, bareAll, alike, alikeToo]
  · rcases shownFront.startsDeclaration with ⟨token, behind, sameFront, starts⟩
    subst sameFront
    rw [List.append_assoc, List.cons_append] at *
    rw [block_eq]
    split
    case h_3 =>
      rw [answer]
      dsimp only [bind, Except.bind]
      rw [answerToo]
    · rename_i same
      cases same
    · rename_i same
      cases same
      cases starts

/-- A statement is read back where a declaration may stand, and where it declares nothing also where
only a statement may. -/
structure Reads (s : Stmt) : Prop where
  declaration : ReadsBy declaration s
  statement : s.declares = false → ReadsBy statement s

namespace Reads

theorem of_statement {s : Stmt} (declaresNothing : s.declares = false)
    (reads : ReadsBy Rule.statement s) : Reads s :=
  ⟨readsBy_declaration declaresNothing reads, fun _ => reads⟩

theorem of_declaration {s : Stmt} (declares : s.declares = true)
    (reads : ReadsBy Rule.declaration s) : Reads s :=
  ⟨reads, fun declaresNothing => absurd (declares.symm.trans declaresNothing) nofun⟩

end Reads

mutual

/-- Every well-formed statement or declaration is read back. -/
theorem reads : ∀ s : Stmt, s.WellFormed → Reads s
  | .expression _, wellFormed => .of_statement rfl (readsBy_expression wellFormed)
  | .print line _, ⟨notEmpty, wellFormed⟩ =>
      .of_statement rfl (readsBy_print notEmpty wellFormed line)
  | .declare target _, wellFormed => .of_declaration rfl (readsBy_declare target wellFormed)
  | .block body, wellFormed => .of_statement rfl (readsBy_block (readsBlock body wellFormed))
  | .branch _ whenTrue none, ⟨conditionFormed, trueFormed, trueDeclares, _, _⟩ =>
      .of_statement rfl
        (readsBy_branch_none conditionFormed ((reads whenTrue trueFormed).statement trueDeclares))
  | .branch _ whenTrue (some whenFalse),
      ⟨conditionFormed, trueFormed, trueDeclares, closed, falseFormed, falseDeclares⟩ =>
      .of_statement rfl
        (readsBy_branch_some conditionFormed (closed nofun)
          ((reads whenTrue trueFormed).statement trueDeclares)
          ((reads whenFalse falseFormed).statement falseDeclares))
  | .whileLoop _ body, ⟨conditionFormed, bodyFormed, bodyDeclares⟩ =>
      .of_statement rfl
        (readsBy_whileLoop conditionFormed ((reads body bodyFormed).statement bodyDeclares))
  | .forLoop _ _ _ body,
      ⟨firstFormed, conditionFormed, incrementFormed, bodyFormed, bodyDeclares⟩ =>
      .of_statement rfl
        (readsBy_forLoop firstFormed conditionFormed incrementFormed
          ((reads body bodyFormed).statement bodyDeclares))
  | .function target _ body, ⟨few, bodyFormed⟩ =>
      .of_declaration rfl (readsBy_function target few (readsBlock body bodyFormed))
  | .giveBack line _, wellFormed => .of_statement rfl (readsBy_giveBack wellFormed line)

/-- Every well-formed block is read back. -/
theorem readsBlock : ∀ body : List Stmt, AllWellFormed body → ReadsBlock body
  | [], _ => readsBlock_nil
  | first :: rest, ⟨wellFormed, restFormed⟩ =>
      readsBlock_cons (reads first wellFormed).declaration (readsBlock rest restFormed)

end

end Stmt

/-! ## Programs -/

/-- What is left of a program does not begin with an `else`. -/
theorem noElse_program {program : List Stmt} {tokens : List Token}
    (shown : Shows (ofStmts program) tokens) : NoElse tokens := by
  intro line others same
  subst same
  cases program with
  | nil => cases shown.eq_nil
  | cons first more =>
      rcases shown.split with ⟨front, back, same, shownFront, _⟩
      rcases shownFront.startsDeclaration with ⟨token, behind, sameFront, starts⟩
      subst sameFront
      cases same
      cases starts

/-- A well-formed program is read back from its first token to its last. -/
theorem parse_answers (program : List Stmt) (wellFormed : Stmt.AllWellFormed program)
    (tokens : List Token) (shown : Shows (ofStmts program) tokens) (next : RefId) :
    ∃ read after, Stmt.bareAll read = Stmt.bareAll program ∧
      parse tokens next = .ok (read, after) := by
  induction program generalizing tokens next with
  | nil =>
      cases shown.eq_nil
      refine ⟨[], next, rfl, ?_⟩
      rw [Rule.parse_eq]
  | cons first others inductionHypothesis =>
      rcases shown.split with ⟨front, back, same, shownFront, shownBack⟩
      subst same
      rcases (Stmt.reads first wellFormed.1).declaration front shownFront back next
        (fun _ => noElse_program shownBack) with ⟨read, middle, alike, answer⟩
      rcases inductionHypothesis wellFormed.2 back shownBack middle with
        ⟨readToo, after, alikeToo, answerToo⟩
      refine ⟨read :: readToo, after, ?_, ?_⟩
      · rw [Stmt.bareAll, Stmt.bareAll, alike, alikeToo]
      · rcases shownFront.startsDeclaration with ⟨token, behind, sameFront, _⟩
        subst sameFront
        rw [List.cons_append] at answer ⊢
        rw [Rule.parse_eq]
        dsimp only
        rw [answer]
        dsimp only [bind, Except.bind]
        rw [answerToo]

/-- Every well-formed program has a text, and whatever the lines of its tokens, it is read back from
them up to lines and identities. -/
theorem parse_complete {program : List Stmt} (wellFormed : Stmt.AllWellFormed program) :
    (∃ tokens, List.Forall₂ Mark.Fits (ofStmts program) tokens) ∧
      ∀ tokens, Shows (ofStmts program) tokens → ∀ next, ∃ read after,
        parse tokens next = .ok (read, after) ∧ Stmt.bareAll read = Stmt.bareAll program := by
  refine ⟨Stmt.spellable_ofStmts program wellFormed, ?_⟩
  intro tokens shown next
  rcases parse_answers program wellFormed tokens shown next with ⟨read, after, alike, answer⟩
  exact ⟨read, after, answer, alike⟩

theorem parse_complete_nestedIf :
    Stmt.AllWellFormed [nestedIf] ∧ Shows (ofStmts [nestedIf]) nestedIfTokens ∧
      ∃ read after, parse nestedIfTokens 8 = .ok (read, after) ∧
        Stmt.bareAll read = Stmt.bareAll [nestedIf] := by
  have wellFormed : Stmt.AllWellFormed [nestedIf] := by
    simp [nestedIf, Stmt.AllWellFormed, Stmt.WellFormed, Stmt.BranchWellFormed, Expr.WellFormed,
      Expr.AllWellFormed, Expr.level, Stmt.declares]
    decide
  have shown : Shows (ofStmts [nestedIf]) nestedIfTokens := rfl
  exact ⟨wellFormed, shown, (parse_complete wellFormed).2 nestedIfTokens shown 8⟩

/-- The accepted texts are those of the well-formed programs. -/
theorem parse_accepts_iff (tokens : List Token) (next : RefId) :
    (∃ read after, parse tokens next = .ok (read, after)) ↔
      ∃ program, Stmt.AllWellFormed program ∧ Shows (ofStmts program) tokens := by
  constructor
  · rintro ⟨read, after, answer⟩
    rcases Rule.parse_passage answer with ⟨passage, wellFormed⟩
    rcases passage.spelled with ⟨used, split, fit⟩
    rw [List.append_nil] at split
    subst split
    exact ⟨read, wellFormed, Shows.of_fits fit⟩
  · rintro ⟨program, wellFormed, shown⟩
    rcases parse_answers program wellFormed tokens shown next with ⟨read, after, _, answer⟩
    exact ⟨read, after, answer⟩

end ScopedScript

import ScopedScript.Proofs.Grammar.ProgramRules
import ScopedScript.Proofs.Recognition.ExpressionPrefixes
namespace ScopedScript

/-!
# The rules for statements obey the grammar

The languages of the rules that read only a part of a statement say how the statement goes on behind that part.
-/

open Word (Viable Then)

namespace Rule

/-! ## Parts of statements -/

theorem expressionThen_obeys (stop : Symbol) (complaint : Complaint) (tokens : List Token) (next : RefId) :
    Obeys (Then (Derives .expression) stop) (expressionThen stop complaint · next) tokens := by
  refine Obeys.of_head (Obeys.bind (expression_obeys tokens next) (fun word derived => ⟨_, word, derived, rfl⟩) ?_)
    fun tokens' _ => expressionThen_eq stop complaint tokens' next
  intro used value middle rest _ _ derived
  refine Obeys.make (fun _ => value) (expect_obeys stop complaint rest middle) ?_
  rintro _ rfl
  exact ⟨_, derived, rfl⟩

theorem optionalThen_obeys (stop : Symbol) (complaint : Complaint) (tokens : List Token) (next : RefId) :
    Obeys (Then (Derives .expression?) stop) (optionalThen stop complaint · next) tokens := by
  rcases next_or (.symbol stop) tokens with ⟨line, rest, rfl⟩ | other
  · refine Obeys.cons (fun rest => ?_) (obeys_done none next rest ⟨[], .noExpression, rfl⟩)
    rw [optionalThen_eq, expect_eq]
    dsimp only
    rw [if_pos rfl]
  · refine Obeys.of_head (Obeys.make some (expressionThen_obeys stop complaint tokens next) ?_) fun tokens' alike => ?_
    · rintro _ ⟨body, derived, rfl⟩
      exact ⟨body, .someExpression derived, rfl⟩
    · rw [optionalThen_eq]
      split
      · exact absurd (expect_ok ‹_›).1 (other _ alike _ _)
      · rfl

/-- What stands in parentheses behind the word of a statement with a condition. -/
def Condition (word : Word) : Prop :=
  ∃ test, Derives .expression test ∧ word = .symbol .leftParen :: (test ++ [.symbol .rightParen])

theorem condition_obeys (opening closing : Complaint) (tokens : List Token) (next : RefId) :
    Obeys Condition (condition opening closing · next) tokens := by
  refine Obeys.of_head (Obeys.bind (expect_obeys .leftParen opening tokens next) ?_ ?_)
    fun tokens' _ => condition_eq opening closing tokens' next
  · rintro _ rfl
    exact ⟨_, _, Derives.expression_nil, rfl⟩
  · intro used line middle rest _ _ opened
    refine (expressionThen_obeys .rightParen closing rest middle).imp ?_
    rintro _ ⟨test, derived, rfl⟩
    rw [opened]
    exact ⟨test, derived, rfl⟩

theorem printList_obeys (tokens : List Token) (next : RefId) :
    Obeys (Then (Derives .arguments) .semicolon) (printList · next) tokens := by
  have closed : ∀ word, Derives .expression word →
      Then (Derives .arguments) .semicolon (word ++ [.symbol .semicolon]) :=
    fun word derived => ⟨word, .lastArgument derived, rfl⟩
  refine Obeys.of_head (Obeys.bind (expression_obeys tokens next) (fun word derived => ⟨_, closed word derived⟩) ?_)
    fun tokens' _ => printList_eq tokens' next
  intro used value middle rest split read derived
  have shorter : rest.length < tokens.length := Reading.length_lt read
  rcases next_or (.symbol .comma) rest with ⟨line, behind, rfl⟩ | noComma
  · refine Obeys.cons (fun rest => rfl) (Obeys.make (value :: ·) (printList_obeys behind middle) ?_)
    rintro _ ⟨list, derivedList, rfl⟩
    exact ⟨_, .moreArguments derived derivedList, by rw [List.append_assoc]; rfl⟩
  · rcases next_or (.symbol .semicolon) rest with ⟨line, behind, rfl⟩ | noSemicolon
    · exact Obeys.cons (fun rest => rfl) (obeys_done [value] middle behind (closed _ derived))
    · refine Obeys.of_head (obeys_refuse .printEnd rest ⟨_, closed _ derived⟩) fun tokens' alike => ?_
      split
      · exact absurd ‹_› (noComma _ alike _ _)
      · exact absurd ‹_› (noSemicolon _ alike _ _)
      · rfl
termination_by tokens.length
decreasing_by simp only [List.length_cons] at shorter; omega

/-- What stands behind the name of a variable that is declared. -/
def Initializer (word : Word) : Prop :=
  ∀ name, Derives .variableDeclaration (.keyword .varWord :: .identifier name :: word)

theorem initializer_obeys (tokens : List Token) (next : RefId) : Obeys Initializer (initializer · next) tokens := by
  rcases next_or (.symbol .equal) tokens with ⟨line, rest, rfl⟩ | other
  · have step : ∀ rest, initializer (⟨.symbol .equal, line⟩ :: rest) next =
        expressionThen .semicolon .declarationEnd rest next >>= fun value =>
          .ok ⟨some value.value, value.next, value.rest⟩ := fun rest => by rw [initializer_eq]
    refine Obeys.cons step (Obeys.make some (expressionThen_obeys .semicolon .declarationEnd rest next) ?_)
    rintro _ ⟨value, derived, rfl⟩ name
    exact .initialized name derived
  · refine Obeys.of_head (Obeys.make (fun _ => none) (expect_obeys .semicolon .declarationEnd tokens next) ?_)
      fun tokens' alike => ?_
    · rintro _ rfl name
      exact .blank name
    · rw [initializer_eq]
      split
      · exact absurd rfl (other _ alike _ _)
      · rfl

theorem variableDeclaration_obeys (tokens : List Token) (next : RefId) :
    Obeys (fun word => Derives .variableDeclaration (.keyword .varWord :: word)) (variableDeclaration · next)
      tokens := by
  refine Obeys.of_head (Obeys.bind (identifier_obeys .variableName tokens next) ?_ ?_)
    fun tokens' _ => variableDeclaration_eq tokens' next
  · rintro _ ⟨name, rfl⟩
    exact ⟨_, .blank name⟩
  · intro used target middle rest _ _ named
    rcases named with ⟨name, same⟩
    refine Obeys.make (Stmt.declare target) (initializer_obeys rest middle) fun word goesOn => ?_
    rw [same]
    exact goesOn name

theorem expressionStatement_obeys (tokens : List Token) (next : RefId) :
    Obeys (Derives .expressionStatement) (expressionStatement · next) tokens := by
  refine Obeys.of_head (Obeys.make Stmt.expression (expressionThen_obeys .semicolon .expressionEnd tokens next) ?_)
    fun tokens' _ => expressionStatement_eq tokens' next
  rintro _ ⟨value, derived, rfl⟩
  exact .evaluated derived

theorem forInitializer_obeys (tokens : List Token) (next : RefId) :
    Obeys (Derives .forStart) (forInitializer · next) tokens := by
  rcases next_or (.symbol .semicolon) tokens with ⟨line, rest, rfl⟩ | noSemicolon
  · refine Obeys.cons (fun rest => ?_) (obeys_done none next rest .startsBlank)
    rw [forInitializer_eq]
  · rcases next_or (.keyword .varWord) tokens with ⟨line, rest, rfl⟩ | noWord
    · have step : ∀ rest, forInitializer (⟨.keyword .varWord, line⟩ :: rest) next =
          variableDeclaration rest next >>= fun declared =>
            .ok ⟨some declared.value, declared.next, declared.rest⟩ := fun rest => by rw [forInitializer_eq]
      exact Obeys.cons step (Obeys.make some (variableDeclaration_obeys rest next) fun _ => .startsDeclaring)
    · refine Obeys.of_head (Obeys.make some (expressionStatement_obeys tokens next) fun _ => .startsEvaluating)
        fun tokens' alike => ?_
      rw [forInitializer_eq]
      split
      · exact absurd rfl (noSemicolon _ alike _ _)
      · exact absurd rfl (noWord _ alike _ _)
      · rfl

/-- What stands between the word `for` and the body. -/
def LoopHeader (word : Word) : Prop :=
  ∀ body, Derives .statement body → Derives .statement (.keyword .forWord :: (word ++ body))

theorem forHeader_of {first test increment : Word} (firstDerived : Derives .forStart first)
    (testDerived : Derives .expression? test) (incrementDerived : Derives .expression? increment) :
    LoopHeader (.symbol .leftParen :: (first ++ ((test ++ [.symbol .semicolon]) ++
      (increment ++ [.symbol .rightParen])))) := by
  intro body derived
  simpa using Derives.forLoop firstDerived testDerived incrementDerived derived

theorem forHeader_obeys (tokens : List Token) (next : RefId) : Obeys LoopHeader (forHeader · next) tokens := by
  refine Obeys.of_head (Obeys.bind (expect_obeys .leftParen .forOpen tokens next) ?_ ?_)
    fun tokens' _ => forHeader_eq tokens' next
  · rintro _ rfl
    exact ⟨[.symbol .semicolon, .symbol .semicolon, .symbol .rightParen],
      forHeader_of .startsBlank .noExpression .noExpression⟩
  intro used line middle rest _ _ opened
  rw [opened]
  refine Obeys.bind (forInitializer_obeys rest middle) (fun first firstDerived => ?_) ?_
  · exact ⟨_, by simpa using forHeader_of firstDerived .noExpression .noExpression⟩
  intro usedFirst first middle rest _ _ firstDerived
  refine Obeys.bind (optionalThen_obeys .semicolon .forConditionEnd rest middle) ?_ ?_
  · rintro _ ⟨test, testDerived, rfl⟩
    exact ⟨_, by simpa using forHeader_of firstDerived testDerived .noExpression⟩
  intro usedTest test middle rest _ _ testDerived
  rcases testDerived with ⟨testWord, testDerived, same⟩
  refine Obeys.make (Parser.ForHeader.mk first test) (optionalThen_obeys .rightParen .forClose rest middle) ?_
  rintro _ ⟨increment, incrementDerived, rfl⟩
  rw [same]
  exact forHeader_of firstDerived testDerived incrementDerived

theorem parameterList_obeys (room : Nat) (tokens : List Token) (next : RefId) :
    Obeys (Then (Derives .parameters) .rightParen) (parameterList room · next) tokens := by
  cases room with
  | zero =>
      have failed : parameterList 0 tokens next = .error ⟨.tooManyParameters, tokens.head?⟩ := by
        rw [parameterList_eq]
        rfl
      exact obeys_of_isBeyond failed rfl
  | succ room =>
      have closed : ∀ name, Then (Derives .parameters) .rightParen [.identifier name, .symbol .rightParen] :=
        fun name => ⟨_, .lastParameter name, rfl⟩
      refine Obeys.of_head (Obeys.bind (identifier_obeys .parameterName tokens next) ?_ ?_)
        fun tokens' _ => parameterList_eq (room + 1) tokens' next
      · rintro _ ⟨name, rfl⟩
        exact ⟨_, closed name⟩
      intro used target middle rest _ _ named
      rcases named with ⟨name, same⟩
      rw [same]
      rcases next_or (.symbol .comma) rest with ⟨line, behind, rfl⟩ | noComma
      · refine Obeys.cons (fun rest => rfl) (Obeys.make (target :: ·) (parameterList_obeys room behind middle) ?_)
        rintro _ ⟨list, derived, rfl⟩
        exact ⟨_, .moreParameters name derived, rfl⟩
      · rcases next_or (.symbol .rightParen) rest with ⟨line, behind, rfl⟩ | noParen
        · exact Obeys.cons (fun rest => rfl) (obeys_done [target] middle behind (closed name))
        · refine Obeys.of_head (obeys_refuse .parametersClose rest ⟨_, closed name⟩) fun tokens' alike => ?_
          split
          · exact absurd ‹_› (noComma _ alike _ _)
          · exact absurd ‹_› (noParen _ alike _ _)
          · rfl

theorem parameters_obeys (tokens : List Token) (next : RefId) :
    Obeys (Then (Derives .parameters?) .rightParen) (parameters · next) tokens := by
  rcases next_or (.symbol .rightParen) tokens with ⟨line, rest, rfl⟩ | other
  · refine Obeys.cons (fun rest => ?_) (obeys_done [] next rest ⟨[], .noParameters, rfl⟩)
    rw [parameters_eq]
  · refine Obeys.of_head ((parameterList_obeys maxArity tokens next).imp ?_) fun tokens' alike => ?_
    · rintro _ ⟨list, derived, rfl⟩
      exact ⟨list, .someParameters derived, rfl⟩
    · rw [parameters_eq]
      split
      · exact absurd rfl (other _ alike _ _)
      · rfl

/-- What stands between the word `fun` and the declarations of the body. -/
def FunctionHeader (word : Word) : Prop :=
  ∀ body, Derives .declarations body →
    Derives .declaration (.keyword .funWord :: (word ++ (body ++ [.symbol .rightBrace])))

theorem functionHeader_of (name : String) {list : Word} (derived : Derives .parameters? list) :
    FunctionHeader (.identifier name :: .symbol .leftParen ::
      ((list ++ [.symbol .rightParen]) ++ [.symbol .leftBrace])) := by
  intro body bodyDerived
  simpa using Derives.function name derived (.braces bodyDerived)

theorem functionHeader_obeys (tokens : List Token) (next : RefId) :
    Obeys FunctionHeader (functionHeader · next) tokens := by
  refine Obeys.of_head (Obeys.bind (identifier_obeys .functionName tokens next) ?_ ?_)
    fun tokens' _ => functionHeader_eq tokens' next
  · rintro _ ⟨name, rfl⟩
    exact ⟨_, functionHeader_of name .noParameters⟩
  intro used target middle rest _ _ named
  rcases named with ⟨name, same⟩
  rw [same]
  refine Obeys.bind (expect_obeys .leftParen .parametersOpen rest middle) ?_ ?_
  · rintro _ rfl
    exact ⟨_, functionHeader_of name .noParameters⟩
  intro _ line middle rest _ _ opened
  rw [opened]
  refine Obeys.bind (parameters_obeys rest middle) ?_ ?_
  · rintro _ ⟨list, derived, rfl⟩
    exact ⟨_, functionHeader_of name derived⟩
  intro _ list middle rest _ _ listed
  rcases listed with ⟨listWord, derived, sameList⟩
  refine Obeys.make (fun _ => (target, list)) (expect_obeys .leftBrace .functionBody rest middle) ?_
  rintro _ rfl
  rw [sameList]
  exact functionHeader_of name derived

/-! ## Statements, declarations and lists of them -/

mutual

theorem declaration_obeys (tokens : List Token) (next : RefId) :
    Obeys (Derives .declaration) (declaration · next) tokens := by
  rcases next_or (.keyword .funWord) tokens with ⟨line, rest, rfl⟩ | noFunction
  · have step : ∀ rest, declaration (⟨.keyword .funWord, line⟩ :: rest) next =
        functionHeader rest next >>= fun header => block header.rest header.next >>= fun body =>
          .ok ⟨.function header.value.1 header.value.2 body.value, body.next, body.rest⟩ :=
      fun rest => by rw [declaration_eq]
    refine Obeys.cons step (Obeys.bind (functionHeader_obeys rest next) (fun word goesOn => ?_) ?_)
    · exact ⟨_, goesOn [] .noDeclarations⟩
    intro used header middle behind _ read goesOn
    have shorter : behind.length < rest.length := Reading.length_lt read
    refine Obeys.make (Stmt.function header.1 header.2) (block_obeys behind middle) ?_
    rintro _ ⟨body, derived, rfl⟩
    exact goesOn body derived
  · rcases next_or (.keyword .varWord) tokens with ⟨line, rest, rfl⟩ | noVariable
    · refine Obeys.cons (fun rest => ?_) ((variableDeclaration_obeys rest next).imp fun _ => .ofVariable)
      rw [declaration_eq]
    · refine Obeys.of_head ((statement_obeys tokens next).imp fun _ => .ofStatement) fun tokens' alike => ?_
      rw [declaration_eq]
      split
      · exact absurd rfl (noFunction _ alike _ _)
      · exact absurd rfl (noVariable _ alike _ _)
      · rfl
termination_by tokens.length * 3 + 1
decreasing_by all_goals subst_vars; (try simp only [List.length_cons] at *); omega

theorem statement_obeys (tokens : List Token) (next : RefId) :
    Obeys (Derives .statement) (statement · next) tokens := by
  rcases next_or (.keyword .forWord) tokens with ⟨line, rest, rfl⟩ | noFor
  · have step : ∀ rest, statement (⟨.keyword .forWord, line⟩ :: rest) next =
        forHeader rest next >>= fun header => statement header.rest header.next >>= fun body =>
          .ok ⟨.forLoop header.value.initializer header.value.condition header.value.increment body.value,
            body.next, body.rest⟩ := fun rest => by rw [statement_eq]
    refine Obeys.cons step (Obeys.bind (forHeader_obeys rest next) (fun word goesOn => ?_) ?_)
    · exact ⟨_, goesOn _ Derives.statement_empty⟩
    intro used header middle behind _ read goesOn
    have shorter : behind.length < rest.length := Reading.length_lt read
    exact Obeys.make (Stmt.forLoop header.initializer header.condition header.increment)
      (statement_obeys behind middle) goesOn
  rcases next_or (.keyword .ifWord) tokens with ⟨line, rest, rfl⟩ | noIf
  · have one : ∀ word body, Condition word → Derives .statement body →
        Derives .statement (.keyword .ifWord :: (word ++ body)) := by
      rintro _ body ⟨test, testDerived, rfl⟩ derived
      simpa using Derives.branch testDerived derived
    have both : ∀ word body other, Condition word → Derives .statement body → Derives .statement other →
        Derives .statement (.keyword .ifWord :: (word ++ (body ++ .keyword .elseWord :: other))) := by
      rintro _ body other ⟨test, testDerived, rfl⟩ derived otherDerived
      simpa using Derives.branches testDerived derived otherDerived
    have step : ∀ rest, statement (⟨.keyword .ifWord, line⟩ :: rest) next =
        condition .ifOpen .ifClose rest next >>= fun test => statement test.rest test.next >>= fun whenTrue =>
          match whenTrue.rest with
          | ⟨.keyword .elseWord, _⟩ :: behind => statement behind whenTrue.next >>= fun whenFalse =>
            .ok ⟨.branch test.value whenTrue.value (some whenFalse.value), whenFalse.next, whenFalse.rest⟩
          | _ => .ok ⟨.branch test.value whenTrue.value none, whenTrue.next, whenTrue.rest⟩ :=
      fun rest => (statement_eq _ next).trans rfl
    refine Obeys.cons step (Obeys.bind (condition_obeys .ifOpen .ifClose rest next) (fun word test => ?_) ?_)
    · exact ⟨_, one _ _ test Derives.statement_empty⟩
    intro used test middle behind _ read word
    have shorter : behind.length < rest.length := Reading.length_lt read
    refine Obeys.bind (statement_obeys behind middle) (fun body derived => ?_) ?_
    · exact Word.viable_of (one _ _ word derived)
    intro usedTrue whenTrue middle left _ readToo derived
    have shorterToo : left.length < behind.length := Reading.length_lt readToo
    rcases next_or (.keyword .elseWord) left with ⟨elseLine, last, rfl⟩ | noElse
    · exact Obeys.cons (fun rest => rfl) (Obeys.make (fun other => Stmt.branch test whenTrue (some other))
        (statement_obeys last middle) fun other => both _ _ other word derived)
    · refine Obeys.of_head (obeys_done (.branch test whenTrue none) middle left ?_) fun tokens' alike => ?_
      · rw [List.append_nil]
        exact one _ _ word derived
      · split
        · exact absurd ‹_› (noElse _ alike _ _)
        · rfl
  rcases next_or (.keyword .whileWord) tokens with ⟨line, rest, rfl⟩ | noWhile
  · have goesOn : ∀ word body, Condition word → Derives .statement body →
        Derives .statement (.keyword .whileWord :: (word ++ body)) := by
      rintro _ body ⟨test, testDerived, rfl⟩ derived
      simpa using Derives.whileLoop testDerived derived
    have step : ∀ rest, statement (⟨.keyword .whileWord, line⟩ :: rest) next =
        condition .whileOpen .whileClose rest next >>= fun test => statement test.rest test.next >>= fun body =>
          .ok ⟨.whileLoop test.value body.value, body.next, body.rest⟩ := fun rest => by rw [statement_eq]
    refine Obeys.cons step (Obeys.bind (condition_obeys .whileOpen .whileClose rest next) (fun word test => ?_) ?_)
    · exact ⟨_, goesOn _ _ test Derives.statement_empty⟩
    intro used test middle behind _ read word
    have shorter : behind.length < rest.length := Reading.length_lt read
    exact Obeys.make (Stmt.whileLoop test) (statement_obeys behind middle) fun body => goesOn _ body word
  rcases next_or (.keyword .returnWord) tokens with ⟨line, rest, rfl⟩ | noReturn
  · have step : ∀ rest, statement (⟨.keyword .returnWord, line⟩ :: rest) next =
        optionalThen .semicolon .returnEnd rest next >>= fun value =>
          .ok ⟨.giveBack line value.value, value.next, value.rest⟩ := fun rest => by rw [statement_eq]
    refine Obeys.cons step (Obeys.make (Stmt.giveBack line) (optionalThen_obeys .semicolon .returnEnd rest next) ?_)
    rintro _ ⟨value, derived, rfl⟩
    exact .giveBack derived
  rcases next_or (.symbol .leftBrace) tokens with ⟨line, rest, rfl⟩ | noBlock
  · have step : ∀ rest, statement (⟨.symbol .leftBrace, line⟩ :: rest) next =
        block rest next >>= fun body => .ok ⟨.block body.value, body.next, body.rest⟩ :=
      fun rest => by rw [statement_eq]
    refine Obeys.cons step (Obeys.make Stmt.block (block_obeys rest next) ?_)
    rintro _ ⟨body, derived, rfl⟩
    exact .ofBlock (.braces derived)
  rcases next_or (.keyword .printWord) tokens with ⟨line, rest, rfl⟩ | noPrint
  · have step : ∀ rest, statement (⟨.keyword .printWord, line⟩ :: rest) next =
        printList rest next >>= fun values => .ok ⟨.print line values.value, values.next, values.rest⟩ :=
      fun rest => by rw [statement_eq]
    refine Obeys.cons step (Obeys.make (Stmt.print line) (printList_obeys rest next) ?_)
    rintro _ ⟨values, derived, rfl⟩
    exact .print derived
  · refine Obeys.of_head ((expressionStatement_obeys tokens next).imp fun _ => .ofExpression) fun tokens' alike => ?_
    rw [statement_eq]
    split
    · exact absurd rfl (noFor _ alike _ _)
    · exact absurd rfl (noIf _ alike _ _)
    · exact absurd rfl (noWhile _ alike _ _)
    · exact absurd rfl (noReturn _ alike _ _)
    · exact absurd rfl (noBlock _ alike _ _)
    · exact absurd rfl (noPrint _ alike _ _)
    · rfl
termination_by tokens.length * 3
decreasing_by all_goals subst_vars; (try simp only [List.length_cons] at *); omega

theorem block_obeys (tokens : List Token) (next : RefId) :
    Obeys (Then (Derives .declarations) .rightBrace) (block · next) tokens := by
  rcases next_or (.symbol .rightBrace) tokens with ⟨line, rest, rfl⟩ | other
  · refine Obeys.cons (fun rest => ?_) (obeys_done [] next rest ⟨[], .noDeclarations, rfl⟩)
    rw [block_eq]
  cases empty : tokens with
  | nil =>
      refine Obeys.of_head (obeys_refuse .blockEnd [] ⟨_, _, .noDeclarations, rfl⟩) fun tokens' alike => ?_
      rw [eq_nil_of_head? alike, block_eq]
  | cons token behind =>
      rw [← empty]
      have whole : Obeys (Then (Derives .declarations) .rightBrace) (fun tokens =>
          declaration tokens next >>= fun first => block first.rest first.next >>= fun others =>
            .ok ⟨first.value :: others.value, others.next, others.rest⟩) tokens := by
        refine Obeys.bind (declaration_obeys tokens next) (fun word derived => ?_) ?_
        · exact ⟨[.symbol .rightBrace], _, .moreDeclarations derived .noDeclarations, by rw [List.append_nil]⟩
        intro used first middle rest _ read derived
        have shorter : rest.length < tokens.length := Reading.length_lt read
        refine Obeys.make (first :: ·) (block_obeys rest middle) ?_
        rintro _ ⟨others, othersDerived, rfl⟩
        exact ⟨_, .moreDeclarations derived othersDerived, by rw [List.append_assoc]⟩
      refine whole.of_head fun tokens' alike => ?_
      rw [block_eq]
      split
      · rw [empty] at alike
        cases alike
      · exact absurd rfl (other _ alike _ _)
      · rfl
termination_by tokens.length * 3 + 2
decreasing_by all_goals subst_vars; (try simp only [List.length_cons] at *); omega

end

/-- A program, read up to the end of its tokens. -/
def program (tokens : List Token) (next : RefId) : Except SyntaxError (Parsed (List Stmt)) :=
  (parse tokens next).map fun result => ⟨result.1, result.2, []⟩

theorem program_eq (tokens : List Token) (next : RefId) :
    program tokens next = (
      match tokens with
      | [] => .ok ⟨[], next, []⟩
      | tokens => do
        let first ← declaration tokens next
        let others ← program first.rest first.next
        .ok ⟨first.value :: others.value, others.next, others.rest⟩) := by
  rw [program, parse_eq]
  cases tokens with
  | nil => rfl
  | cons token rest =>
      dsimp only
      cases declaration (token :: rest) next with
      | error _ => rfl
      | ok first =>
          dsimp only [bind, Except.bind, program]
          cases parse first.rest first.next <;> rfl

theorem program_obeys (tokens : List Token) (next : RefId) :
    Obeys (Derives .declarations) (program · next) tokens := by
  cases empty : tokens with
  | nil =>
      refine Obeys.of_head (obeys_done [] next [] .noDeclarations) fun tokens' alike => ?_
      rw [eq_nil_of_head? alike, program_eq]
  | cons token behind =>
      rw [← empty]
      have whole : Obeys (Derives .declarations) (fun tokens =>
          declaration tokens next >>= fun first => program first.rest first.next >>= fun others =>
            .ok ⟨first.value :: others.value, others.next, others.rest⟩) tokens := by
        refine Obeys.bind (declaration_obeys tokens next) (fun word derived => ?_) ?_
        · exact ⟨[], .moreDeclarations derived .noDeclarations⟩
        intro used first middle rest _ read derived
        have shorter : rest.length < tokens.length := Reading.length_lt read
        exact Obeys.make (first :: ·) (program_obeys rest middle) fun others => .moreDeclarations derived
      refine whole.of_head fun tokens' alike => ?_
      rw [program_eq]
      split
      · rw [empty] at alike
        cases alike
      · rfl
termination_by tokens.length
decreasing_by subst empty; exact shorter

end Rule

end ScopedScript

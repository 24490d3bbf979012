import ScopedScript.Proofs.Recognition.ExpressionAcceptance
import ScopedScript.Proofs.Recognition.ProgramPrefixes
namespace ScopedScript

/-!
# Programs of the grammar that the parser reads

The grammar does not say to which `if` an `else` belongs.  A statement is therefore `Settled` when its words are
divided up as the parser does it, where no `else` follows a branch that ends in an `if` without one.  Any statement
is settled, since an `else` that follows such a branch can be given to it.
-/

open Rule

section

variable {α β : Type}

/-- The word is read by a rule, whatever stands behind it. -/
def Word.ReadsBy (word : Word) (rule : List Token → RefId → Except SyntaxError (Parsed α)) : Prop :=
  ∀ used, kinds used = word → ∀ rest next, Passes (rule (used ++ rest) next) rest

namespace Word.ReadsBy

variable {word first second : Word} {rule other : List Token → RefId → Except SyntaxError (Parsed α)}

/-- The token behind the word may be left out of it. -/
theorem upTo {stop : Symbol} (reads : ∀ used, kinds used = word → ∀ line rest next,
    Passes (rule (used ++ ⟨.symbol stop, line⟩ :: rest) next) rest) : ReadsBy (word ++ [.symbol stop]) rule := by
  intro used same rest next
  rcases kinds_eq_append same with ⟨front, back, rfl, sameFront, sameBack⟩
  rcases kinds_eq_cons sameBack with ⟨line, none, rfl, empty⟩
  cases List.map_eq_nil_iff.mp empty
  rw [List.append_assoc]
  exact reads front sameFront line rest next

theorem cons {kind : TokenKind} {inner : Nat → List Token → RefId → Except SyntaxError (Parsed α)}
    (reads : ∀ line, ReadsBy word (inner line))
    (opened : ∀ line tokens next, rule (⟨kind, line⟩ :: tokens) next = inner line tokens next) :
    ReadsBy (kind :: word) rule := by
  intro used same rest next
  rcases kinds_eq_cons same with ⟨line, behind, rfl, sameBehind⟩
  rw [List.cons_append, opened]
  exact reads line behind sameBehind rest next

theorem bind {inner : β → List Token → RefId → Except SyntaxError (Parsed α)}
    {start : List Token → RefId → Except SyntaxError (Parsed β)} (reads : ReadsBy first start)
    (continues : ∀ value, ReadsBy second (inner value)) :
    ReadsBy (first ++ second) fun tokens next =>
      start tokens next >>= fun out => inner out.value out.rest out.next := by
  intro used same rest next
  rcases kinds_eq_append same with ⟨front, back, rfl, sameFront, sameBack⟩
  dsimp only
  rw [List.append_assoc]
  exact (reads front sameFront (back ++ rest) next).bind fun value after => continues value back sameBack rest after

theorem make {start : List Token → RefId → Except SyntaxError (Parsed β)} (reads : ReadsBy word start) (f : β → α) :
    ReadsBy word fun tokens next => start tokens next >>= fun out => .ok ⟨f out.value, out.next, out.rest⟩ :=
  fun used same rest next => (reads used same rest next).bind fun _ _ => passes_ok _ _ _

theorem of_eq (reads : ReadsBy word other) (same : ∀ tokens next, rule tokens next = other tokens next) :
    ReadsBy word rule := fun used split rest next => by
  rw [same]
  exact reads used split rest next

end Word.ReadsBy

end

namespace Word

variable {word first second third : Word}

/-! ## Parts of statements -/

theorem readsBy_expect (s : Symbol) (complaint : Complaint) : ReadsBy [.symbol s] (expect s complaint) := by
  intro used same rest next
  rcases kinds_eq_cons same with ⟨line, none, rfl, empty⟩
  cases List.map_eq_nil_iff.mp empty
  rw [List.cons_append, List.nil_append, expect_symbol]
  exact passes_ok _ _ _

theorem readsBy_identifier (name : String) (complaint : Complaint) :
    ReadsBy [.identifier name] (identifier complaint) := by
  intro used same rest next
  rcases kinds_eq_cons same with ⟨line, none, rfl, empty⟩
  cases List.map_eq_nil_iff.mp empty
  rw [List.cons_append, List.nil_append, identifier_eq]
  exact passes_ok _ _ _

theorem readsBy_expressionThen (reads : ReadsExpression word) {stop : Symbol} (closing : stop.closes = true)
    (complaint : Complaint) : ReadsBy (word ++ [.symbol stop]) (expressionThen stop complaint) := by
  refine ReadsBy.upTo fun used same line rest next => ?_
  rw [expressionThen_eq]
  refine (reads used same _ next ⟨stop, line, rest, rfl, closing⟩).bind fun value after => ?_
  dsimp only
  rw [expect_symbol]
  exact passes_ok _ _ _

/-- The word is read as an expression that may be absent. -/
def ReadsExpression? (word : Word) : Prop :=
  ∀ stop : Symbol, stop.closes = true → ∀ complaint, ReadsBy (word ++ [.symbol stop]) (optionalThen stop complaint)

theorem readsExpression?_none : ReadsExpression? [] := by
  intro stop closing complaint
  refine ReadsBy.upTo fun used same line rest next => ?_
  cases List.map_eq_nil_iff.mp same
  rw [List.nil_append, optionalThen_eq, expect_symbol]
  exact passes_ok _ _ _

theorem readsExpression?_some (derived : Derives .expression word) (reads : ReadsExpression word) :
    ReadsExpression? word := by
  intro stop closing complaint used same rest next
  have whole := readsBy_expressionThen reads closing complaint used same rest next
  rcases derived.begins rfl with ⟨kind, behind, rfl, starts⟩
  rcases kinds_eq_cons same with ⟨line, others, rfl, _⟩
  rcases @expect_starts stop closing complaint ⟨kind, line⟩ starts (others ++ rest) next with ⟨error, refused⟩
  rw [optionalThen_eq, List.cons_append, refused]
  exact whole.bind fun value after => passes_ok _ _ _

theorem readsBy_condition (reads : ReadsExpression word) (opening closing : Complaint) :
    ReadsBy (.symbol .leftParen :: (word ++ [.symbol .rightParen])) (condition opening closing) :=
  ((readsBy_expect .leftParen opening).bind fun _ => readsBy_expressionThen reads rfl closing).of_eq
    (condition_eq opening closing)

theorem readsBy_expressionStatement (reads : ReadsExpression word) :
    ReadsBy (word ++ [.symbol .semicolon]) expressionStatement :=
  ((readsBy_expressionThen reads rfl .expressionEnd).make Stmt.expression).of_eq expressionStatement_eq

/-- The word is read as the declaration of a variable. -/
def ReadsVariable (word : Word) : Prop :=
  ∃ behind, word = .keyword .varWord :: behind ∧ ReadsBy behind variableDeclaration

theorem readsVariable_of {name : String} {behind : Word} (reads : ReadsBy behind initializer) :
    ReadsVariable (.keyword .varWord :: .identifier name :: behind) := by
  refine ⟨_, rfl, ReadsBy.of_eq ?_ variableDeclaration_eq⟩
  exact (readsBy_identifier name .variableName).bind fun target => reads.make (Stmt.declare target)

theorem readsVariable_blank (name : String) :
    ReadsVariable [.keyword .varWord, .identifier name, .symbol .semicolon] := by
  refine readsVariable_of fun used same rest next => ?_
  have closed := readsBy_expect .semicolon .declarationEnd used same rest next
  rcases kinds_eq_cons same with ⟨line, none, rfl, _⟩
  rw [List.cons_append, initializer_eq]
  exact closed.bind fun _ after => passes_ok _ _ _

theorem readsVariable_initialized (name : String) (reads : ReadsExpression word) :
    ReadsVariable (.keyword .varWord :: .identifier name :: .symbol .equal :: (word ++ [.symbol .semicolon])) := by
  refine readsVariable_of (ReadsBy.cons (fun _ => (readsBy_expressionThen reads rfl .declarationEnd).make some) ?_)
  intro line tokens next
  rw [initializer_eq]

theorem readsBy_forInitializer_declaring (reads : ReadsVariable word) : ReadsBy word forInitializer := by
  rcases reads with ⟨behind, rfl, reads⟩
  refine ReadsBy.cons (fun _ => reads.make some) fun line tokens next => ?_
  rw [forInitializer_eq]

theorem readsBy_forInitializer_evaluating (derived : Derives .expressionStatement word)
    (reads : ReadsBy word expressionStatement) : ReadsBy word forInitializer := by
  intro used same rest next
  have whole := reads.make some used same rest next
  rcases derived.begins rfl with ⟨kind, behind, rfl, starts⟩
  rcases kinds_eq_cons same with ⟨line, others, rfl, _⟩
  rw [List.cons_append, forInitializer_eq]
  split
  · cases ‹_ = _›
    cases starts
  · cases ‹_ = _›
    cases starts
  · exact whole

theorem readsBy_forInitializer_blank : ReadsBy [.symbol .semicolon] forInitializer := by
  intro used same rest next
  rcases kinds_eq_cons same with ⟨line, none, rfl, empty⟩
  cases List.map_eq_nil_iff.mp empty
  rw [List.cons_append, forInitializer_eq]
  exact passes_ok _ _ _

theorem readsBy_forHeader (readsFirst : ReadsBy first forInitializer) (readsTest : ReadsExpression? second)
    (readsIncrement : ReadsExpression? third) :
    ReadsBy (.symbol .leftParen :: (first ++ ((second ++ [.symbol .semicolon]) ++ (third ++ [.symbol .rightParen]))))
      forHeader :=
  ((readsBy_expect .leftParen .forOpen).bind fun _ => readsFirst.bind fun first =>
    (readsTest .semicolon rfl .forConditionEnd).bind fun test =>
      (readsIncrement .rightParen rfl .forClose).make (Parser.ForHeader.mk first test)).of_eq forHeader_eq

/-- The word is read as the parameters of a function, if there are not too many of them. -/
def ReadsParameters (word : Word) : Prop :=
  ∀ room, ReadsBy (word ++ [.symbol .rightParen]) (parameterList room)

theorem readsParameters_last (name : String) : ReadsParameters [.identifier name] := by
  intro room used same rest next
  rcases kinds_eq_cons same with ⟨line, behind, rfl, sameBehind⟩
  rcases kinds_eq_cons sameBehind with ⟨closeLine, none, rfl, empty⟩
  cases List.map_eq_nil_iff.mp empty
  rw [parameterList_eq]
  cases room with
  | zero => exact .inr ⟨_, rfl, rfl⟩
  | succ room =>
      rw [List.cons_append, identifier_eq]
      exact passes_ok _ _ _

theorem readsParameters_more (name : String) (reads : ReadsParameters word) :
    ReadsParameters (.identifier name :: .symbol .comma :: word) := by
  intro room used same rest next
  rcases kinds_eq_cons same with ⟨line, behind, rfl, sameBehind⟩
  rcases kinds_eq_cons sameBehind with ⟨commaLine, others, rfl, sameOthers⟩
  rw [parameterList_eq]
  cases room with
  | zero => exact .inr ⟨_, rfl, rfl⟩
  | succ room =>
      rw [List.cons_append, identifier_eq]
      exact (reads room others sameOthers rest next).bind fun list after => passes_ok _ _ _

theorem readsBy_parameters_none : ReadsBy [.symbol .rightParen] parameters := by
  intro used same rest next
  rcases kinds_eq_cons same with ⟨line, none, rfl, empty⟩
  cases List.map_eq_nil_iff.mp empty
  rw [List.cons_append, parameters_eq]
  exact passes_ok _ _ _

theorem readsBy_parameters_some (derived : Derives .parameters word) (reads : ReadsParameters word) :
    ReadsBy (word ++ [.symbol .rightParen]) parameters := by
  intro used same rest next
  have listed := reads maxArity used same rest next
  have named : ∃ name behind, word = .identifier name :: behind := by
    cases derived with
    | lastParameter name => exact ⟨name, _, rfl⟩
    | moreParameters name _ => exact ⟨name, _, rfl⟩
  rcases named with ⟨name, behind, rfl⟩
  rcases kinds_eq_cons same with ⟨line, others, rfl, _⟩
  rw [List.cons_append, parameters_eq]
  exact listed

theorem readsBy_functionHeader (name : String) (reads : ReadsBy (word ++ [.symbol .rightParen]) parameters) :
    ReadsBy (.identifier name :: .symbol .leftParen :: ((word ++ [.symbol .rightParen]) ++ [.symbol .leftBrace]))
      functionHeader :=
  ((readsBy_identifier name .functionName).bind fun target =>
    (readsBy_expect .leftParen .parametersOpen).bind fun _ => reads.bind fun list =>
      (readsBy_expect .leftBrace .functionBody).make fun _ => (target, list)).of_eq functionHeader_eq

/-! ## Statements -/

/-- The word makes a statement of the statement behind it. -/
def Heads (word : Word) : Prop :=
  ∀ used, kinds used = word → ∀ rest next, ComesTo (statement (used ++ rest) next)
    fun (make : Stmt → Stmt) after => statement rest after >>= fun body =>
      .ok ⟨make body.value, body.next, body.rest⟩

/-- The word makes an `if` of the statements behind it. -/
def HeadsBranch (word : Word) : Prop :=
  ∀ used, kinds used = word → ∀ rest next, ComesTo (statement (used ++ rest) next)
    fun (test : Expr) after => statement rest after >>= fun whenTrue =>
      match whenTrue.rest with
      | ⟨.keyword .elseWord, _⟩ :: behind => statement behind whenTrue.next >>= fun whenFalse =>
        .ok ⟨.branch test whenTrue.value (some whenFalse.value), whenFalse.next, whenFalse.rest⟩
      | _ => .ok ⟨.branch test whenTrue.value none, whenTrue.next, whenTrue.rest⟩

/-- A statement divided up as the parser reads it, and whether it ends in an `if` without `else`. -/
inductive Settled : Bool → Word → Prop where
  | whole {word : Word} (reads : ReadsBy word statement) : Settled false word
  | headed {opened : Bool} {header body : Word} (heads : Heads header) (settled : Settled opened body) :
      Settled opened (header ++ body)
  | branch {opened : Bool} {header whenTrue : Word} (heads : HeadsBranch header)
      (settled : Settled opened whenTrue) : Settled true (header ++ whenTrue)
  | branches {opened : Bool} {header whenTrue whenFalse : Word} (heads : HeadsBranch header)
      (settledTrue : Settled false whenTrue) (settledFalse : Settled opened whenFalse) :
      Settled opened (header ++ (whenTrue ++ .keyword .elseWord :: whenFalse))

/-- An `else` can be given to a statement that ends in an `if` without one. -/
theorem Settled.withElse {opened last : Bool} (settled : Settled opened first) (isOpen : opened = true)
    (other : Settled last second) : ∃ result, Settled result (first ++ .keyword .elseWord :: second) := by
  induction settled with
  | whole _ => cases isOpen
  | headed heads _ inductionHypothesis =>
      rcases inductionHypothesis isOpen with ⟨result, settled⟩
      rw [List.append_assoc]
      exact ⟨result, .headed heads settled⟩
  | @branch opened _ _ heads settled inductionHypothesis =>
      rw [List.append_assoc]
      cases opened with
      | false => exact ⟨last, .branches heads settled other⟩
      | true =>
          rcases inductionHypothesis rfl with ⟨result, settled⟩
          exact ⟨true, .branch heads settled⟩
  | branches heads settledTrue _ _ inductionHypothesis =>
      rcases inductionHypothesis isOpen with ⟨result, settled⟩
      rw [List.append_assoc, List.append_assoc, List.cons_append]
      exact ⟨result, .branches heads settledTrue settled⟩

/-- A settled statement is read, unless it could take an `else` that comes next. -/
theorem Settled.passes {opened : Bool} (settled : Settled opened word) :
    ∀ used, kinds used = word → ∀ rest next, (opened = true → NoElse rest) →
      Passes (statement (used ++ rest) next) rest := by
  induction settled with
  | whole reads => exact fun used same rest next _ => reads used same rest next
  | headed heads _ inductionHypothesis =>
      intro used same rest next noElse
      rcases kinds_eq_append same with ⟨front, back, rfl, sameFront, sameBack⟩
      rw [List.append_assoc]
      refine (heads front sameFront (back ++ rest) next).trans fun make after => ?_
      exact (inductionHypothesis back sameBack rest after noElse).bind fun _ _ => passes_ok _ _ _
  | branch heads _ inductionHypothesis =>
      intro used same rest next noElse
      rcases kinds_eq_append same with ⟨front, back, rfl, sameFront, sameBack⟩
      rw [List.append_assoc]
      refine (heads front sameFront (back ++ rest) next).trans fun test after => ?_
      refine (inductionHypothesis back sameBack rest after fun _ => noElse rfl).bind fun whenTrue after => ?_
      dsimp only
      split
      · exact absurd rfl (noElse rfl _ _)
      · exact passes_ok _ _ _
  | branches heads _ _ hypothesisTrue hypothesisFalse =>
      intro used same rest next noElse
      rcases kinds_eq_append same with ⟨front, back, rfl, sameFront, sameBack⟩
      rcases kinds_eq_append sameBack with ⟨front', back', rfl, sameFront', sameBack'⟩
      rcases kinds_eq_cons sameBack' with ⟨line, behind, rfl, sameBehind⟩
      rw [List.append_assoc, List.append_assoc, List.cons_append]
      refine (heads front sameFront _ next).trans fun test after => ?_
      refine (hypothesisTrue front' sameFront' _ after (by simp)).bind fun whenTrue after => ?_
      exact (hypothesisFalse behind sameBehind rest after noElse).bind fun _ _ => passes_ok _ _ _

theorem heads_whileLoop (reads : ReadsExpression word) :
    Heads (.keyword .whileWord :: .symbol .leftParen :: (word ++ [.symbol .rightParen])) := by
  intro used same rest next
  rcases kinds_eq_cons same with ⟨line, behind, rfl, sameBehind⟩
  rw [List.cons_append, statement_eq]
  exact (readsBy_condition reads .whileOpen .whileClose behind sameBehind rest next).bind fun test after =>
    .inl ⟨Stmt.whileLoop test, after, rfl⟩

theorem heads_forLoop (reads : ReadsBy word forHeader) : Heads (.keyword .forWord :: word) := by
  intro used same rest next
  rcases kinds_eq_cons same with ⟨line, behind, rfl, sameBehind⟩
  rw [List.cons_append, statement_eq]
  exact (reads behind sameBehind rest next).bind fun header after =>
    .inl ⟨Stmt.forLoop header.initializer header.condition header.increment, after, rfl⟩

theorem headsBranch (reads : ReadsExpression word) :
    HeadsBranch (.keyword .ifWord :: .symbol .leftParen :: (word ++ [.symbol .rightParen])) := by
  intro used same rest next
  rcases kinds_eq_cons same with ⟨line, behind, rfl, sameBehind⟩
  rw [List.cons_append, statement_eq]
  exact (readsBy_condition reads .ifOpen .ifClose behind sameBehind rest next).bind fun test after =>
    .inl ⟨test, after, rfl⟩

/-- The word is read as a block, with its braces. -/
def ReadsBraces (word : Word) : Prop := ∃ behind, word = .symbol .leftBrace :: behind ∧ ReadsBy behind block

theorem readsBy_block (reads : ReadsBraces word) : ReadsBy word statement := by
  rcases reads with ⟨behind, rfl, reads⟩
  refine ReadsBy.cons (fun _ => reads.make Stmt.block) fun line tokens next => ?_
  rw [statement_eq]

theorem readsBy_giveBack (reads : ReadsExpression? word) :
    ReadsBy (.keyword .returnWord :: (word ++ [.symbol .semicolon])) statement := by
  refine ReadsBy.cons (fun line => (reads .semicolon rfl .returnEnd).make (Stmt.giveBack line))
    fun line tokens next => ?_
  rw [statement_eq]

theorem readsBy_print (reads : ReadsArguments word) :
    ReadsBy (.keyword .printWord :: (word ++ [.symbol .semicolon])) statement := by
  have listed : ReadsBy (word ++ [.symbol .semicolon]) printList :=
    ReadsBy.upTo fun used same line rest next => (reads used same line rest next).2
  refine ReadsBy.cons (fun line => listed.make (Stmt.print line)) fun line tokens next => ?_
  rw [statement_eq]

theorem readsBy_statement_expression (derived : Derives .expressionStatement word)
    (reads : ReadsBy word expressionStatement) : ReadsBy word statement := by
  intro used same rest next
  have whole := reads used same rest next
  rcases derived.begins rfl with ⟨kind, behind, rfl, starts⟩
  rcases kinds_eq_cons same with ⟨line, others, rfl, _⟩
  rw [List.cons_append] at whole ⊢
  rw [statement_eq]
  split
  case h_7 => exact whole
  all_goals
    rename_i same
    cases same
    cases starts

/-! ## Declarations and lists of them -/

/-- The word is read as a declaration, unless an `else` comes next. -/
def ReadsDeclaration (word : Word) : Prop :=
  ∀ used, kinds used = word → ∀ rest next, NoElse rest → Passes (declaration (used ++ rest) next) rest

theorem readsDeclaration_function (name : String)
    (readsParameters : ReadsBy (first ++ [.symbol .rightParen]) parameters)
    (readsBody : ReadsBraces second) :
    ReadsDeclaration (.keyword .funWord :: .identifier name :: .symbol .leftParen ::
      (first ++ .symbol .rightParen :: second)) := by
  rcases readsBody with ⟨behind, rfl, readsBody⟩
  have reads := (readsBy_functionHeader name readsParameters).bind fun header =>
    readsBody.make (Stmt.function header.1 header.2)
  have opened (line : Nat) (tokens : List Token) (next : RefId) :
      declaration (⟨.keyword .funWord, line⟩ :: tokens) next =
        functionHeader tokens next >>= fun header => block header.rest header.next >>= fun body =>
          .ok ⟨.function header.value.1 header.value.2 body.value, body.next, body.rest⟩ := by rw [declaration_eq]
  intro used same rest next _
  refine ReadsBy.cons (fun _ => reads) opened used (same.trans ?_) rest next
  simp only [List.append_assoc, List.cons_append, List.nil_append]

theorem readsDeclaration_variable (reads : ReadsVariable word) : ReadsDeclaration word := by
  rcases reads with ⟨behind, rfl, reads⟩
  intro used same rest next _
  rcases kinds_eq_cons same with ⟨line, others, rfl, sameOthers⟩
  rw [List.cons_append, declaration_eq]
  exact reads others sameOthers rest next

theorem readsDeclaration_statement (derived : Derives .statement word) {opened : Bool}
    (settled : Settled opened word) :
    ReadsDeclaration word := by
  intro used same rest next noElse
  have whole := settled.passes used same rest next fun _ => noElse
  rcases derived.begins rfl with ⟨kind, behind, rfl, starts⟩
  rcases kinds_eq_cons same with ⟨line, others, rfl, _⟩
  rw [List.cons_append] at whole ⊢
  rw [declaration_eq]
  split
  case h_3 => exact whole
  all_goals
    rename_i same
    cases same
    cases starts

/-- The word is read as the declarations of a block and of a program. -/
def ReadsDeclarations (word : Word) : Prop :=
  ∀ used, kinds used = word →
    (∀ line rest next, Passes (block (used ++ ⟨.symbol .rightBrace, line⟩ :: rest) next) rest) ∧
      ∀ next, Passes (program used next) []

theorem readsDeclarations_none : ReadsDeclarations [] := by
  intro used same
  cases List.map_eq_nil_iff.mp same
  refine ⟨fun line rest next => ?_, fun next => ?_⟩
  · rw [List.nil_append, block_eq]
    exact passes_ok _ _ _
  · rw [program_eq]
    exact passes_ok _ _ _

/-- Neither a declaration nor what stands behind the last one is an `else`. -/
theorem noElse_of_declarations (derived : Derives .declarations word) {used rest : List Token}
    (same : kinds used = word) (noElse : NoElse rest) : NoElse (used ++ rest) := by
  cases derived with
  | noDeclarations =>
      cases List.map_eq_nil_iff.mp same
      exact noElse
  | moreDeclarations first others =>
      rcases first.begins rfl with ⟨kind, behind, rfl, starts⟩
      rcases kinds_eq_cons same with ⟨line, more, rfl, _⟩
      intro otherLine others same
      cases same
      cases starts

theorem readsDeclarations_more (derived : Derives .declaration first) (derivedRest : Derives .declarations second)
    (reads : ReadsDeclaration first) (readsRest : ReadsDeclarations second) : ReadsDeclarations (first ++ second) := by
  rcases derived.begins rfl with ⟨kind, start, rfl, starts⟩
  intro used same
  rcases kinds_eq_append same with ⟨front, back, rfl, sameFront, sameBack⟩
  rcases readsRest back sameBack with ⟨closed, ended⟩
  have one := reads front sameFront
  rcases kinds_eq_cons sameFront with ⟨firstLine, others, rfl, _⟩
  refine ⟨fun line rest next => ?_, fun next => ?_⟩
  · have read := one (back ++ ⟨.symbol .rightBrace, line⟩ :: rest) next
      (noElse_of_declarations derivedRest sameBack (by simp [NoElse]))
    rw [List.append_assoc, List.cons_append] at *
    rw [block_eq]
    split
    case h_3 => exact read.bind fun value after => (closed line rest after).bind fun _ _ => passes_ok _ _ _
    · cases ‹_ = _›
    · cases ‹_ = _›
      cases starts
  · have noElse := noElse_of_declarations derivedRest sameBack (by simp [NoElse] : NoElse [])
    rw [List.append_nil] at noElse
    have read := one back next noElse
    rw [List.cons_append] at read ⊢
    rw [program_eq]
    exact read.bind fun value after => (ended after).bind fun _ _ => passes_ok _ _ _

end Word

/-! ## All phrases -/

namespace Phrase

/-- How the words of a phrase are read. -/
def Accepts : Phrase → Word → Prop
  | declarations, word => word.ReadsDeclarations
  | declaration, word => word.ReadsDeclaration
  | variableDeclaration, word => word.ReadsVariable
  | statement, word => ∃ opened, Word.Settled opened word
  | expressionStatement, word => word.ReadsBy Rule.expressionStatement
  | forStart, word => word.ReadsBy forInitializer
  | block, word => word.ReadsBraces
  | parameters, word => word.ReadsParameters
  | parameters?, word => Word.ReadsBy (word ++ [.symbol .rightParen]) Rule.parameters
  | expression, word => word.ReadsExpression
  | expression?, word => word.ReadsExpression?
  | operation level, word => word.ReadsOperation level
  | unary, word => word.ReadsUnary
  | call, word | primary, word => word.ReadsCallee
  | arguments, word => word.ReadsArguments
  | arguments?, word => word.ReadsArguments?

end Phrase

open Word in
/-- Every word of the grammar is read by the rule for its phrase. -/
theorem Derives.accepted {phrase : Phrase} {word : Word} (derived : Derives phrase word) : phrase.Accepts word := by
  induction derived with
  | noDeclarations => exact readsDeclarations_none
  | moreDeclarations first rest readsFirst readsRest => exact readsDeclarations_more first rest readsFirst readsRest
  | function name _ _ readsList readsBody => exact readsDeclaration_function name readsList readsBody
  | ofVariable _ reads => exact readsDeclaration_variable reads
  | ofStatement derived settled => exact readsDeclaration_statement derived settled.choose_spec
  | blank name => exact readsVariable_blank name
  | initialized name _ reads => exact readsVariable_initialized name reads
  | ofExpression derived reads => exact ⟨false, .whole (readsBy_statement_expression derived reads)⟩
  | print _ reads => exact ⟨false, .whole (readsBy_print reads)⟩
  | whileLoop _ _ readsTest settled =>
      rcases settled with ⟨opened, settled⟩
      refine ⟨opened, ?_⟩
      simpa using Settled.headed (heads_whileLoop readsTest) settled
  | forLoop _ _ _ _ readsFirst readsTest readsIncrement settled =>
      rcases settled with ⟨opened, settled⟩
      refine ⟨opened, ?_⟩
      simpa using Settled.headed (heads_forLoop (readsBy_forHeader readsFirst readsTest readsIncrement)) settled
  | branch _ _ readsTest settled =>
      rcases settled with ⟨opened, settled⟩
      refine ⟨true, ?_⟩
      simpa using Settled.branch (headsBranch readsTest) settled
  | branches _ _ _ readsTest settledTrue settledFalse =>
      rcases settledTrue with ⟨opened, settledTrue⟩
      rcases settledFalse with ⟨last, settledFalse⟩
      cases opened with
      | false =>
          refine ⟨last, ?_⟩
          simpa using Settled.branches (headsBranch readsTest) settledTrue settledFalse
      | true =>
          rcases settledTrue.withElse rfl settledFalse with ⟨result, settled⟩
          refine ⟨true, ?_⟩
          simpa using Settled.branch (headsBranch readsTest) settled
  | ofBlock _ reads => exact ⟨false, .whole (readsBy_block reads)⟩
  | giveBack _ reads => exact ⟨false, .whole (readsBy_giveBack reads)⟩
  | evaluated _ reads => exact readsBy_expressionStatement reads
  | startsDeclaring _ reads => exact readsBy_forInitializer_declaring reads
  | startsEvaluating derived reads => exact readsBy_forInitializer_evaluating derived reads
  | startsBlank => exact readsBy_forInitializer_blank
  | braces _ reads => exact ⟨_, rfl, ReadsBy.upTo fun used same => (reads used same).1⟩
  | lastParameter name => exact readsParameters_last name
  | moreParameters name _ reads => exact readsParameters_more name reads
  | noParameters => exact readsBy_parameters_none
  | someParameters derived reads => exact readsBy_parameters_some derived reads
  | assignment _ _ reads readsValue => exact readsExpression_assignment reads readsValue
  | ofOperation _ reads => exact readsExpression_of_operation reads
  | noExpression => exact readsExpression?_none
  | someExpression derived reads => exact readsExpression?_some derived reads
  | operate listed _ _ reads readsRight => exact readsOperation_operate listed reads readsRight
  | ofOperand _ _ reads => exact readsOperation_of_operand reads
  | ofUnary _ reads => exact readsOperation_of_unary reads
  | signed listed _ reads => exact readsUnary_signed listed reads
  | ofCall _ reads => exact readsUnary_of_callee reads
  | ofPrimary _ reads => exact reads
  | apply _ _ reads readsList => exact readsCallee_apply reads readsList
  | lastArgument _ reads => exact readsArguments_last reads
  | moreArguments _ _ reads readsRest => exact readsArguments_more reads readsRest
  | noArguments => exact readsArguments?_none
  | someArguments derived reads => exact readsArguments?_some derived reads
  | atom isAtom => exact readsCallee_atom isAtom
  | group _ reads => exact readsCallee_group reads

end ScopedScript

import ScopedScript.Proofs.Descent.Expectations
namespace ScopedScript

/-!
# The procedures for statements and declarations meet the grammar

The parts that read nothing but expressions ask only that those are met.  Everything else stands behind a
keyword or a brace, where any procedure may be called.
-/

namespace Descent

section

variable {tokens : List Token} {active : List Entry} {call : Calls} {left rank : Nat} {used rest : List Token}
  {token : Token} {next : RefId}

/-! ## Parts with expressions -/

theorem meets_expressionThen (stop : Symbol) (complaint : Complaint)
    (expressions : ExpressionsMeet tokens active call rest.length) :
    Meets tokens active (expressionThen call stop complaint) ⟨used, rest, next⟩
      (Rule.expressionThen stop complaint rest next) := by
  rw [Rule.expressionThen_eq]
  exact (expressions ⟨used, rest, next⟩ (Nat.le_refl _)).bind fun _ _ _ => meets_consume fun _ _ _ => meets_pure _

theorem meets_optionalThen (stop : Symbol) (complaint : Complaint)
    (expressions : ExpressionsMeet tokens active call rest.length) :
    Meets tokens active (optionalThen call stop complaint) ⟨used, rest, next⟩
      (Rule.optionalThen stop complaint rest next) := by
  unfold optionalThen
  rw [Rule.optionalThen_eq]
  refine meets_checkSymbol (fun line behind follows => ?_) fun notStopped => ?_
  · subst follows
    rw [Rule.expect_symbol]
    exact (passes_consume _ (Wanted.fits_symbol _)).meets_bind (meets_pure _)
  · rw [expect_of_misses complaint notStopped]
    exact (meets_expressionThen stop complaint expressions).make some

theorem meets_condition (opening closing : Complaint) (expressions : ExpressionsMeet tokens active call rest.length) :
    Meets tokens active (condition call opening closing) ⟨used, rest, next⟩
      (Rule.condition opening closing rest next) := by
  rw [Rule.condition_eq]
  refine meets_consume fun line behind follows => meets_expressionThen _ _ (expressions.mono ?_)
  rw [follows]
  exact Nat.le_succ _

theorem meets_initializer (expressions : ExpressionsMeet tokens active call rest.length) :
    Meets tokens active (initializer call) ⟨used, rest, next⟩ (Rule.initializer rest next) := by
  unfold initializer
  rw [Rule.initializer_eq]
  refine meets_acceptSymbol (fun line behind follows => ?_) fun notEqual => ?_
  · subst follows
    exact (meets_expressionThen _ _ (expressions.mono (Nat.le_succ _))).make some
  · split
    · cases notEqual
    · exact meets_consume fun _ _ _ => meets_pure _

theorem meets_variableDeclaration (expressions : ExpressionsMeet tokens active call rest.length) :
    Meets tokens active (variableDeclaration call) ⟨used, rest, next⟩ (Rule.variableDeclaration rest next) := by
  rw [Rule.variableDeclaration_eq]
  refine (meets_identifier _).bind fun name used answered => ?_
  exact (meets_initializer (expressions.mono (Nat.le_of_lt (Reading.length_lt answered)))).make _

theorem meets_expressionStatement (expressions : ExpressionsMeet tokens active call rest.length) :
    Meets tokens active (expressionStatement call) ⟨used, rest, next⟩ (Rule.expressionStatement rest next) := by
  rw [Rule.expressionStatement_eq]
  exact (meets_expressionThen _ _ expressions).make _

theorem meets_forInitializer (expressions : ExpressionsMeet tokens active call rest.length) :
    Meets tokens active (forInitializer call) ⟨used, rest, next⟩ (Rule.forInitializer rest next) := by
  unfold forInitializer
  rw [Rule.forInitializer_eq]
  refine meets_acceptSymbol (fun line behind follows => ?_) fun notEmpty =>
    meets_acceptKeyword (fun line behind follows => ?_) fun notVariable => ?_
  · subst follows
    exact meets_pure _
  · subst follows
    exact (meets_variableDeclaration (expressions.mono (Nat.le_succ _))).make some
  · split
    · cases notEmpty
    · cases notVariable
    · exact (meets_expressionStatement expressions).make some

/-! ## Statements behind their keyword -/

/-- The header of a `for` and its body.  The header is a part of its own in the grammar. -/
theorem meets_forStatement (calls : CallsMeet tokens active call (rest.length + 1) rank) :
    Meets tokens active (forStatement call) ⟨used, rest, next⟩ (do
      let header ← Rule.forHeader rest next
      let body ← Rule.statement header.rest header.next
      .ok ⟨.forLoop header.value.initializer header.value.condition header.value.increment body.value,
        body.next, body.rest⟩) := by
  have expressions := calls.expressions_behind (Nat.lt_succ_self rest.length)
  rw [Rule.forHeader_eq]
  simp only [bind_assoc]
  refine meets_consume fun line behind follows => ?_
  have opened : behind.length ≤ rest.length := by
    rw [follows]
    exact Nat.le_succ _
  refine (meets_forInitializer (expressions.mono opened)).bind fun first used begun => ?_
  have firstShorter : first.rest.length ≤ rest.length := Nat.le_trans (Nat.le_of_lt (Reading.length_lt begun)) opened
  refine (meets_optionalThen _ _ (expressions.mono firstShorter)).bind fun test used tested => ?_
  have testShorter : test.rest.length ≤ rest.length :=
    Nat.le_trans (Nat.le_of_lt (Reading.length_lt tested)) firstShorter
  refine (meets_optionalThen _ _ (expressions.mono testShorter)).bind fun increment used closed => ?_
  refine (calls.behind .statement trivial ?_).make _
  have := Reading.length_lt closed
  omega

theorem meets_ifStatement (calls : CallsMeet tokens active call (rest.length + 1) rank) :
    Meets tokens active (ifStatement call) ⟨used, rest, next⟩ (do
      let test ← Rule.condition .ifOpen .ifClose rest next
      let whenTrue ← Rule.statement test.rest test.next
      match whenTrue.rest with
      | ⟨.keyword .elseWord, _⟩ :: behind =>
        let whenFalse ← Rule.statement behind whenTrue.next
        .ok ⟨.branch test.value whenTrue.value (some whenFalse.value), whenFalse.next, whenFalse.rest⟩
      | _ => .ok ⟨.branch test.value whenTrue.value none, whenTrue.next, whenTrue.rest⟩) := by
  refine (meets_condition _ _ (calls.expressions_behind (Nat.lt_succ_self _))).bind fun test used tested => ?_
  have testShorter := Reading.length_lt tested
  refine (calls.behind .statement trivial (Nat.lt_succ_of_lt testShorter)).bind fun whenTrue used answered => ?_
  have trueShorter := Reading.length_lt answered
  rcases whenTrue with ⟨whenTrue, next', behind⟩
  refine meets_acceptKeyword (fun line others follows => ?_) fun noElse => ?_
  · cases follows
    refine (calls.behind .statement trivial ?_).make _
    simp only [List.length_cons] at trueShorter
    omega
  · dsimp only
    split
    · cases noElse
    · exact meets_pure _

theorem meets_whileStatement (calls : CallsMeet tokens active call (rest.length + 1) rank) :
    Meets tokens active (whileStatement call) ⟨used, rest, next⟩ (do
      let test ← Rule.condition .whileOpen .whileClose rest next
      let body ← Rule.statement test.rest test.next
      .ok ⟨.whileLoop test.value body.value, body.next, body.rest⟩) := by
  refine (meets_condition _ _ (calls.expressions_behind (Nat.lt_succ_self _))).bind fun test used tested => ?_
  exact (calls.behind .statement trivial (Nat.lt_succ_of_lt (Reading.length_lt tested))).make _

theorem meets_returnStatement (calls : CallsMeet tokens active call (rest.length + 1) rank) :
    Meets tokens active (returnStatement call) ⟨token :: used, rest, next⟩ (do
      let value ← Rule.optionalThen .semicolon .returnEnd rest next
      .ok ⟨.giveBack token.line value.value, value.next, value.rest⟩) :=
  passes_previous.meets_bind
    ((meets_optionalThen _ _ (calls.expressions_behind (Nat.lt_succ_self _))).make _)

theorem meets_printLoop {done : List Expr} (calls : CallsMeet tokens active call rest.length rank) :
    Meets tokens active (printLoop call done) ⟨used, rest, next⟩ (Rule.valuesFrom done rest next) := by
  unfold printLoop
  refine meets_separator (fun line behind follows => ?_) (fun line behind follows => ?_)
    fun notComma notEnded => ?_
  · subst follows
    change Meets _ _ _ _ (Parsed.map (done ++ ·) <$> Rule.printList behind next)
    rw [Rule.printList_from]
    refine (calls.behind .expression trivial (Nat.lt_succ_self _)).bind fun value used answered => ?_
    exact calls.behind (.printLoop _) trivial (Nat.lt_succ_of_lt (Reading.length_lt answered))
  · subst follows
    exact meets_pure _
  · unfold Rule.valuesFrom
    split
    · cases notComma
    · cases notEnded
    · rfl

theorem meets_printStatement (calls : CallsMeet tokens active call (rest.length + 1) rank) :
    Meets tokens active (printStatement call) ⟨token :: used, rest, next⟩ (do
      let values ← Rule.printList rest next
      .ok ⟨.print token.line values.value, values.next, values.rest⟩) := by
  rw [Rule.printList_first, bind_assoc]
  refine passes_previous.meets_bind ?_
  refine (calls.behind .expression trivial (Nat.lt_succ_self _)).bind fun value used answered => ?_
  exact (calls.behind (.printLoop _) trivial (Nat.lt_succ_of_lt (Reading.length_lt answered))).make _

theorem meets_block (calls : CallsMeet tokens active call (rest.length + 1) rank) :
    Meets tokens active (block call) ⟨used, rest, next⟩ (do
      let body ← Rule.block rest next
      .ok ⟨.block body.value, body.next, body.rest⟩) := by
  rw [← Rule.declarationsFrom_nil]
  exact (calls.behind (.blockLoop []) trivial (Nat.lt_succ_self _)).make _

theorem meets_statement (calls : CallsMeet tokens active call rest.length Label.statement.rank) :
    Meets tokens active (statement call) ⟨used, rest, next⟩ (Rule.statement rest next) := by
  unfold statement
  rw [Rule.statement_eq]
  refine meets_acceptKeyword (fun line behind follows => ?_) fun notFor =>
    meets_acceptKeyword (fun line behind follows => ?_) fun notIf =>
    meets_acceptKeyword (fun line behind follows => ?_) fun notWhile =>
    meets_acceptKeyword (fun line behind follows => ?_) fun notReturn =>
    meets_acceptSymbol (fun line behind follows => ?_) fun notBlock =>
    meets_acceptKeyword (fun line behind follows => ?_) fun notPrint => ?_
  · subst follows
    exact meets_forStatement calls
  · subst follows
    exact meets_ifStatement calls
  · subst follows
    exact meets_whileStatement calls
  · subst follows
    exact meets_returnStatement calls
  · subst follows
    exact meets_block calls
  · subst follows
    exact meets_printStatement calls
  · split
    · cases notFor
    · cases notIf
    · cases notWhile
    · cases notReturn
    · cases notBlock
    · cases notPrint
    · exact meets_expressionStatement (calls.expressions_deeper (by decide))

/-! ## Declarations and lists of them -/

/-- A turn over the parameters of a function.  The limit is looked at before the parameter is read. -/
theorem meets_parameterLoop {done : List Identifier} (calls : CallsMeet tokens active call rest.length rank) :
    Meets tokens active (parameterLoop call done) ⟨used, rest, next⟩ (Rule.parametersFrom done rest next) := by
  unfold parameterLoop
  rw [Rule.parametersFrom_eq]
  split
  · exact meets_refuse _
  · refine (meets_identifier _).bind fun name used answered => ?_
    have shorter := Reading.length_lt answered
    rcases name with ⟨name, next', behind⟩
    refine meets_separator (fun line others follows => ?_) (fun line others follows => ?_)
      fun notComma notClosed => ?_
    · cases follows
      exact calls.behind (.parameterLoop _) trivial (Nat.lt_of_succ_lt shorter)
    · cases follows
      exact meets_pure _
    · dsimp only
      split
      · cases notComma
      · cases notClosed
      · rfl

theorem meets_parameters (calls : CallsMeet tokens active call left rank) (fewer : rest.length < left) :
    Meets tokens active (parameters call) ⟨used, rest, next⟩ (Rule.parameters rest next) := by
  unfold parameters
  refine meets_checkSymbol (fun line behind follows => ?_) fun notClosed => ?_
  · subst follows
    rw [Rule.parameters_eq]
    exact (passes_consume _ (Wanted.fits_symbol _)).meets_bind (meets_pure _)
  · have list : Rule.parameters rest next = Rule.parametersFrom [] rest next := by
      rw [Rule.parameters_eq]
      split
      · cases notClosed
      · exact (Rule.parametersFrom_nil rest next).symm
    rw [list]
    exact calls.behind (.parameterLoop []) trivial fewer

/-- The header of a function and its body.  The header is a part of its own in the grammar. -/
theorem meets_function (calls : CallsMeet tokens active call (rest.length + 1) rank) :
    Meets tokens active (function call) ⟨used, rest, next⟩ (do
      let header ← Rule.functionHeader rest next
      let body ← Rule.block header.rest header.next
      .ok ⟨.function header.value.1 header.value.2 body.value, body.next, body.rest⟩) := by
  rw [Rule.functionHeader_eq]
  simp only [bind_assoc]
  refine (meets_identifier _).bind fun name used named => ?_
  have nameShorter := Reading.length_lt named
  refine meets_consume fun line behind opened => ?_
  have openShorter : behind.length < name.rest.length := by
    rw [opened]
    exact Nat.lt_succ_self _
  refine (meets_parameters calls (by omega)).bind fun list used listed => ?_
  have listShorter := Reading.length_lt listed
  refine meets_consume fun line body braced => ?_
  have bodyShorter : body.length < list.rest.length := by
    rw [braced]
    exact Nat.lt_succ_self _
  change Meets _ _ _ _ (Rule.block body list.next >>= _)
  rw [← Rule.declarationsFrom_nil]
  refine (calls.behind (.blockLoop []) trivial ?_).make _
  change list.rest.length < behind.length at listShorter
  omega

theorem meets_declaration (calls : CallsMeet tokens active call rest.length Label.declaration.rank) :
    Meets tokens active (declaration call) ⟨used, rest, next⟩ (Rule.declaration rest next) := by
  unfold declaration
  rw [Rule.declaration_eq]
  refine passes_peek.meets_bind ?_
  refine meets_acceptKeyword (fun line behind follows => ?_) fun notFunction =>
    meets_acceptKeyword (fun line behind follows => ?_) fun notVariable => ?_
  · subst follows
    exact meets_function calls
  · subst follows
    exact meets_variableDeclaration (calls.expressions_behind (Nat.lt_succ_self _))
  · split
    · cases notFunction
    · cases notVariable
    · exact calls.deeper .statement trivial (by decide)

/-- A block goes on until its closing brace or the end of the text. -/
theorem passes_blockGoesOn :
    Passes tokens active blockGoesOn ⟨used, rest, next⟩
      (!((Wanted.symbol .rightBrace).comesNext rest || rest.isEmpty)) ⟨used, rest, next⟩ := by
  refine (passes_check _).bind ?_
  cases (Wanted.symbol .rightBrace).comesNext rest with
  | true => exact passes_pure _ _
  | false => exact passes_isAtEnd.bind (passes_pure _ _)

/-- A turn over the declarations of a block. -/
theorem meets_blockLoop {done : List Stmt} (calls : CallsMeet tokens active call rest.length Label.blockLoop.rank) :
    Meets tokens active (blockLoop call done) ⟨used, rest, next⟩ (Rule.declarationsFrom done rest next) := by
  unfold blockLoop
  rw [Rule.declarationsFrom_eq]
  refine passes_blockGoesOn.meets_bind ?_
  rcases (Wanted.symbol .rightBrace).comesNext_or rest with ⟨⟨kind, line⟩, behind, follows, fits⟩ | notClosed
  · cases Wanted.eq_symbol fits
    subst follows
    exact (passes_consume _ (Wanted.fits_symbol _)).meets_bind (meets_pure _)
  · rw [notClosed]
    rcases rest with _ | ⟨token, behind⟩
    · exact meets_consume_or _ (fun _ _ impossible => absurd impossible (List.cons_ne_nil _ _).symm) fun _ => rfl
    · change Meets _ _ (call .declaration >>= fun first => call (.blockLoop (done ++ [first]))) _ _
      split
      · rename_i empty
        cases empty
      · rename_i same
        cases same
        cases notClosed
      · refine (calls.deeper .declaration trivial (by decide)).bind fun first used answered => ?_
        exact calls.behind (.blockLoop _) trivial (Reading.length_lt answered)

/-- A turn over the declarations of a program. -/
theorem meets_programLoop {done : List Stmt} (calls : CallsMeet tokens active call rest.length Label.programLoop.rank) :
    Meets tokens active (programLoop call done) ⟨used, rest, next⟩ (Rule.programFrom done rest next) := by
  unfold programLoop
  rw [Rule.programFrom_eq]
  refine passes_isAtEnd.meets_bind ?_
  rcases rest with _ | ⟨token, behind⟩
  · exact meets_pure _
  · refine (calls.deeper .declaration trivial (by decide)).bind fun first used answered => ?_
    exact calls.behind (.programLoop _) trivial (Reading.length_lt answered)

end

end Descent

end ScopedScript

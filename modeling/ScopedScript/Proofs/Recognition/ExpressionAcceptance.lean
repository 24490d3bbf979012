import ScopedScript.Proofs.Grammar.ProgramCompleteness
import ScopedScript.Proofs.Recognition.Beginnings
import ScopedScript.Proofs.Recognition.ExpressionPrefixes
namespace ScopedScript

/-!
# Expressions of the grammar that the parser reads

The other direction: every word that a phrase derives is read by the rule for that phrase, whatever stands behind
it, as long as it cannot belong to the word.  Only what the grammar allows beyond the parser may be refused.

As with well-formed trees, what a left operand is read as is said by the tail that goes on from it, since an
operation ends in the middle of a chain.
-/

section

variable {α β γ : Type}

/-- Reading comes to the goal, or to a complaint about something that the grammar allows. -/
def ComesTo (answer : Except SyntaxError (Parsed α)) (goal : β → RefId → Except SyntaxError (Parsed α)) : Prop :=
  (∃ value after, answer = goal value after) ∨
    ∃ error, answer = .error error ∧ error.complaint.isBeyond = true

/-- Reading comes to the rest of the tokens. -/
def Passes (answer : Except SyntaxError (Parsed α)) (rest : List Token) : Prop :=
  ComesTo answer fun value after => .ok ⟨value, after, rest⟩

variable {answer : Except SyntaxError (Parsed α)} {goal : β → RefId → Except SyntaxError (Parsed α)}
  {middle : γ → RefId → Except SyntaxError (Parsed α)} {rest : List Token}

theorem passes_ok (value : α) (after : RefId) (rest : List Token) : Passes (.ok ⟨value, after, rest⟩) rest :=
  .inl ⟨value, after, rfl⟩

theorem ComesTo.trans (comes : ComesTo answer middle)
    (continues : ∀ value after, ComesTo (middle value after) goal) : ComesTo answer goal := by
  rcases comes with ⟨value, after, same⟩ | beyond
  · rw [same]
    exact continues value after
  · exact .inr beyond

/-- One rule after another. -/
theorem ComesTo.bind {δ : Type} {first : Except SyntaxError (Parsed γ)}
    {halfway : δ → RefId → Except SyntaxError (Parsed γ)} {second : Parsed γ → Except SyntaxError (Parsed α)}
    (comes : ComesTo first halfway)
    (continues : ∀ value after, ComesTo (halfway value after >>= second) goal) :
    ComesTo (first >>= second) goal := by
  rcases comes with ⟨value, after, same⟩ | ⟨error, same, beyond⟩
  · rw [same]
    exact continues value after
  · refine .inr ⟨error, ?_, beyond⟩
    rw [same]
    rfl

/-- One rule after another that has read its word. -/
theorem Passes.bind {first : Except SyntaxError (Parsed γ)} {behind : List Token}
    {second : Parsed γ → Except SyntaxError (Parsed α)} (passes : Passes first behind)
    (continues : ∀ value after, ComesTo (second ⟨value, after, behind⟩) goal) :
    ComesTo (first >>= second) goal :=
  ComesTo.bind passes continues

end

open Rule

/-- A symbol that can stand behind a whole expression comes next. -/
def ClosesExpr (tokens : List Token) : Prop :=
  ∃ s line rest, tokens = ⟨.symbol s, line⟩ :: rest ∧ s.closes = true

theorem ClosesExpr.ends {tokens : List Token} (closes : ClosesExpr tokens) : Ends 1 tokens := by
  rcases closes with ⟨s, line, rest, rfl, closing⟩
  refine Ends.before_symbol s line rest (fun same => ?_) ?_
  · subst same
    cases closing
  · cases s <;> first | rfl | cases closing

namespace Word

variable (word : Word)

/-- The word is read as a whole expression. -/
def ReadsExpression : Prop :=
  ∀ used, kinds used = word → ∀ rest next, ClosesExpr rest → Passes (expression (used ++ rest) next) rest

/-- The word is read up to the operators behind it. -/
def ReadsOperation (level : Nat) : Prop :=
  ∀ used, kinds used = word → ∀ low rest next, low ≤ level → Ends (level + 1) rest →
    ComesTo (chain low (used ++ rest) next) (chainTail low · rest)

/-- The word is read as an operand of the tightest operators. -/
def ReadsUnary : Prop :=
  ∀ used, kinds used = word → ∀ rest next, NoCall rest → Passes (unary (used ++ rest) next) rest

/-- The word is read up to the argument lists behind it. -/
def ReadsCallee : Prop :=
  ∀ used, kinds used = word → ∀ rest next, ComesTo (unary (used ++ rest) next) (callTail · rest)

/-- The word is read as arguments and as values to print. -/
def ReadsArguments : Prop :=
  ∀ used, kinds used = word → ∀ line rest next,
    (∀ room, Passes (argumentList room (used ++ ⟨.symbol .rightParen, line⟩ :: rest) next) rest) ∧
    Passes (printList (used ++ ⟨.symbol .semicolon, line⟩ :: rest) next) rest

/-- The word is read as the arguments of a call. -/
def ReadsArguments? : Prop :=
  ∀ used, kinds used = word → ∀ line rest next,
    Passes (arguments (used ++ ⟨.symbol .rightParen, line⟩ :: rest) next) rest

variable {word} {first second : Word}

/-! ## Whole expressions -/

theorem readsExpression_of_operation (reads : ReadsOperation word 1) : ReadsExpression word := by
  intro used same rest next closes
  rw [expression_eq]
  refine (reads used same 1 rest next (Nat.le_refl 1) (closes.ends.weaken (by decide))).bind fun left after => ?_
  rw [chainTail_ends closes.ends]
  rcases closes with ⟨s, line, behind, rfl, closing⟩
  cases s <;> first | exact passes_ok _ _ _ | cases closing

theorem readsExpression_assignment (reads : ReadsOperation first 1) (readsValue : ReadsExpression second) :
    ReadsExpression (first ++ .symbol .equal :: second) := by
  intro used same rest next closes
  rcases kinds_eq_append same with ⟨front, back, rfl, sameFront, sameBack⟩
  rcases kinds_eq_cons sameBack with ⟨line, behind, rfl, sameBehind⟩
  have ends : Ends 1 (⟨.symbol .equal, line⟩ :: (behind ++ rest)) := Ends.before_symbol .equal line _ nofun rfl
  rw [List.append_assoc, List.cons_append, expression_eq]
  refine (reads front sameFront 1 _ next (Nat.le_refl 1) (ends.weaken (by decide))).bind fun left after => ?_
  rw [chainTail_ends ends]
  refine (readsValue behind sameBehind rest after closes).bind fun source after => ?_
  cases left with
  | «variable» ref name => exact passes_ok _ _ _
  | _ => exact .inr ⟨_, rfl, rfl⟩

/-! ## Operations -/

theorem readsOperation_of_operand {level : Nat} (reads : ReadsOperation word (level + 1)) :
    ReadsOperation word level := by
  intro used same low rest next fits ends
  exact reads used same low rest next (Nat.le_succ_of_le fits) (ends.weaken (Nat.le_succ _))

theorem readsOperation_of_unary (reads : ReadsUnary word) : ReadsOperation word 7 := by
  intro used same low rest next _ ends
  rw [chain_eq]
  exact (reads used same rest next ends.noCall).bind fun value after => .inl ⟨value, after, rfl⟩

theorem readsOperation_operate {level : Nat} {operator : TokenKind} (listed : operator ∈ TokenKind.operators level)
    (reads : ReadsOperation first level) (readsRight : ReadsOperation second (level + 1)) :
    ReadsOperation (first ++ operator :: second) level := by
  intro used same low rest next fits ends
  rcases kinds_eq_append same with ⟨front, back, rfl, sameFront, sameBack⟩
  rcases kinds_eq_cons sameBack with ⟨line, behind, rfl, sameBehind⟩
  rcases Connective.of_mem_operators listed with ⟨connective, rfl, rfl⟩
  rw [List.append_assoc, List.cons_append]
  refine (reads front sameFront low _ next fits (Ends.before_operator connective line _)).trans fun left after => ?_
  rw [chainTail_eq]
  dsimp only
  rw [Connective.ofKind?_eq_some_iff.mpr rfl]
  dsimp only
  rw [if_neg (Nat.not_lt_of_le fits)]
  refine (readsRight behind sameBehind (connective.level + 1) rest after (Nat.le_refl _)
    (ends.weaken (Nat.le_succ _))).bind fun right after => ?_
  rw [chainTail_ends ends]
  exact .inl ⟨connective.apply line left right, after, rfl⟩

/-! ## Operands -/

theorem readsUnary_of_callee (reads : ReadsCallee word) : ReadsUnary word := by
  intro used same rest next noCall
  refine (reads used same rest next).trans fun callee after => ?_
  rw [callTail_ends noCall]
  exact passes_ok _ _ _

theorem readsUnary_signed {sign : TokenKind} (listed : sign ∈ TokenKind.signs) (reads : ReadsUnary word) :
    ReadsUnary (sign :: word) := by
  intro used same rest next noCall
  rcases kinds_eq_cons same with ⟨line, behind, rfl, sameBehind⟩
  rcases UnaryOp.of_mem_signs listed with ⟨op, found⟩
  rw [List.cons_append, unary_eq]
  dsimp only
  rw [found]
  exact (reads behind sameBehind rest next noCall).bind fun operand after => passes_ok _ _ _

theorem readsCallee_atom {kind : TokenKind} (isAtom : kind.isAtom = true) : ReadsCallee [kind] := by
  intro used same rest next
  rcases kinds_eq_cons same with ⟨line, none, rfl, empty⟩
  cases List.map_eq_nil_iff.mp empty
  rw [List.cons_append, List.nil_append]
  have isConstant {value : Constant} (found : Constant.ofKind? kind = some value)
      (noSign : UnaryOp.ofKind? kind = none)
      (read : primary (⟨kind, line⟩ :: rest) next = .ok ⟨.constant value, next, rest⟩) :
      ComesTo (unary (⟨kind, line⟩ :: rest) next) (callTail · rest) :=
    .inl ⟨_, _, unary_of_primary (fun token others same => by cases same; exact noSign) read⟩
  cases kind with
  | symbol _ => cases isAtom
  | identifier name => exact .inl ⟨_, _, unary_variable name line rest next⟩
  | string body => exact isConstant rfl rfl (by rw [primary_eq]; rfl)
  | number numeral => exact isConstant rfl rfl (by rw [primary_eq]; rfl)
  | keyword k =>
      cases k with
      | trueWord => exact isConstant rfl rfl (by rw [primary_eq]; rfl)
      | falseWord => exact isConstant rfl rfl (by rw [primary_eq]; rfl)
      | nilWord => exact isConstant rfl rfl (by rw [primary_eq]; rfl)
      | _ => cases isAtom

theorem readsCallee_group (reads : ReadsExpression word) :
    ReadsCallee (.symbol .leftParen :: (word ++ [.symbol .rightParen])) := by
  intro used same rest next
  rcases kinds_eq_cons same with ⟨line, behind, rfl, sameBehind⟩
  rcases kinds_eq_append sameBehind with ⟨inner, back, rfl, sameInner, sameBack⟩
  rcases kinds_eq_cons sameBack with ⟨closeLine, none, rfl, empty⟩
  cases List.map_eq_nil_iff.mp empty
  have opened : ∀ tokens, unary (⟨.symbol .leftParen, line⟩ :: tokens) next =
      expression tokens next >>= fun value => expect .rightParen .groupClose value.rest value.next >>= fun close =>
        callTail (.group value.value) close.rest close.next := by
    intro tokens
    rw [unary_eq]
    dsimp only [UnaryOp.ofKind?]
    rw [primary_eq, bind_assoc]
    refine congrArg _ (funext fun value => ?_)
    rw [bind_assoc]
    rfl
  rw [List.cons_append, List.append_assoc, opened]
  refine (reads inner sameInner _ next ⟨.rightParen, closeLine, rest, rfl, rfl⟩).bind fun value after => ?_
  exact .inl ⟨.group value, after, by rw [expect_symbol]; rfl⟩

theorem readsCallee_apply (reads : ReadsCallee first) (readsList : ReadsArguments? second) :
    ReadsCallee (first ++ .symbol .leftParen :: (second ++ [.symbol .rightParen])) := by
  intro used same rest next
  rcases kinds_eq_append same with ⟨front, back, rfl, sameFront, sameBack⟩
  rcases kinds_eq_cons sameBack with ⟨line, behind, rfl, sameBehind⟩
  rcases kinds_eq_append sameBehind with ⟨list, last, rfl, sameList, sameLast⟩
  rcases kinds_eq_cons sameLast with ⟨closeLine, none, rfl, empty⟩
  cases List.map_eq_nil_iff.mp empty
  rw [List.append_assoc, List.cons_append, List.append_assoc]
  refine (reads front sameFront _ next).trans fun callee after => ?_
  rw [callTail_eq]
  exact (readsList list sameList closeLine rest after).bind fun listed after => .inl ⟨_, after, rfl⟩

/-! ## Arguments -/

theorem readsArguments_last (reads : ReadsExpression word) : ReadsArguments word := by
  intro used same line rest next
  refine ⟨fun room => ?_, ?_⟩
  · rw [argumentList_eq]
    cases room with
    | zero => exact .inr ⟨_, rfl, rfl⟩
    | succ room =>
        exact (reads used same _ next ⟨.rightParen, line, rest, rfl, rfl⟩).bind fun value after => passes_ok _ _ _
  · rw [printList_eq]
    exact (reads used same _ next ⟨.semicolon, line, rest, rfl, rfl⟩).bind fun value after => passes_ok _ _ _

theorem readsArguments_more (reads : ReadsExpression first) (readsRest : ReadsArguments second) :
    ReadsArguments (first ++ .symbol .comma :: second) := by
  intro used same line rest next
  rcases kinds_eq_append same with ⟨front, back, rfl, sameFront, sameBack⟩
  rcases kinds_eq_cons sameBack with ⟨commaLine, behind, rfl, sameBehind⟩
  rw [List.append_assoc, List.append_assoc, List.cons_append, List.cons_append]
  have closes : ∀ tokens, ClosesExpr (⟨.symbol .comma, commaLine⟩ :: tokens) := fun tokens => ⟨_, _, _, rfl, rfl⟩
  refine ⟨fun room => ?_, ?_⟩
  · rw [argumentList_eq]
    cases room with
    | zero => exact .inr ⟨_, rfl, rfl⟩
    | succ room =>
        refine (reads front sameFront _ next (closes _)).bind fun value after => ?_
        exact ((readsRest behind sameBehind line rest after).1 room).bind fun others after => passes_ok _ _ _
  · rw [printList_eq]
    refine (reads front sameFront _ next (closes _)).bind fun value after => ?_
    exact (readsRest behind sameBehind line rest after).2.bind fun others after => passes_ok _ _ _

theorem readsArguments?_none : ReadsArguments? [] := by
  intro used same line rest next
  cases List.map_eq_nil_iff.mp same
  rw [List.nil_append, arguments_eq]
  exact passes_ok _ _ _

theorem readsArguments?_some (derived : Derives .arguments word) (reads : ReadsArguments word) :
    ReadsArguments? word := by
  intro used same line rest next
  have listed := (reads used same line rest next).1 maxArity
  rcases derived.begins rfl with ⟨kind, behind, rfl, starts⟩
  rcases kinds_eq_cons same with ⟨firstLine, others, rfl, _⟩
  rw [arguments_eq]
  split
  · cases ‹_ = _›
    cases starts
  · exact listed

end Word

end ScopedScript

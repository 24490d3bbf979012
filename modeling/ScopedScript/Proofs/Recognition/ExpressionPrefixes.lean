import ScopedScript.Proofs.Grammar.ExpressionCompleteness
import ScopedScript.Proofs.Grammar.ExpressionSoundness
import ScopedScript.Proofs.Recognition.Lookahead
namespace ScopedScript

/-!
# The rules for expressions obey the grammar

The parser reads operators by their level while the grammar nests them, one phrase for each level.  A tail starts
behind a word of some level, and no operator above that level comes next: so the word is a left operand of whichever
operator does.
-/

open Word (Viable Then)

/-- Every operator between two operands is one of its level in the grammar. -/
theorem Connective.mem_operators {kind : TokenKind} {connective : Connective}
    (found : Connective.ofKind? kind = some connective) : kind ∈ TokenKind.operators connective.level := by
  rw [Connective.ofKind?_eq_some_iff] at found
  subst found
  cases connective with
  | logical op => cases op <;> decide
  | binary op => cases op <;> decide

theorem Connective.of_mem_operators {level : Nat} {kind : TokenKind} (listed : kind ∈ TokenKind.operators level) :
    ∃ connective : Connective, kind = connective.kind ∧ level = connective.level := by
  unfold TokenKind.operators at listed
  split at listed <;> simp only [List.mem_cons, List.not_mem_nil, or_false] at listed
  · exact ⟨.logical .or, listed, rfl⟩
  · exact ⟨.logical .and, listed, rfl⟩
  · rcases listed with same | same
    · exact ⟨.binary .notEqual, same, rfl⟩
    · exact ⟨.binary .equal, same, rfl⟩
  · rcases listed with same | same | same | same
    · exact ⟨.binary .greater, same, rfl⟩
    · exact ⟨.binary .greaterEqual, same, rfl⟩
    · exact ⟨.binary .less, same, rfl⟩
    · exact ⟨.binary .lessEqual, same, rfl⟩
  · rcases listed with same | same
    · exact ⟨.binary .subtract, same, rfl⟩
    · exact ⟨.binary .add, same, rfl⟩
  · rcases listed with same | same
    · exact ⟨.binary .divide, same, rfl⟩
    · exact ⟨.binary .multiply, same, rfl⟩

theorem UnaryOp.mem_signs {kind : TokenKind} {op : UnaryOp} (found : UnaryOp.ofKind? kind = some op) :
    kind ∈ TokenKind.signs := by
  rw [UnaryOp.ofKind?_eq_some_iff] at found
  subst found
  cases op <;> decide

theorem UnaryOp.of_mem_signs {kind : TokenKind} (listed : kind ∈ TokenKind.signs) :
    ∃ op, UnaryOp.ofKind? kind = some op := by
  simp only [TokenKind.signs, List.mem_cons, List.not_mem_nil, or_false] at listed
  rcases listed with rfl | rfl
  · exact ⟨.not, rfl⟩
  · exact ⟨.negate, rfl⟩

theorem Constant.isAtom {kind : TokenKind} {constant : Constant} (found : Constant.ofKind? kind = some constant) :
    kind.isAtom = true := by
  cases kind with
  | symbol _ => cases found
  | keyword k => cases k <;> first | rfl | cases found
  | _ => rfl

namespace Derives

/-- An operation of a higher level is one of every lower level. -/
theorem lower {level top : Nat} {word : Word} (derived : Derives (.operation top) word) (fits : level ≤ top)
    (high : top ≤ 7) : Derives (.operation level) word := by
  induction fits with
  | refl => exact derived
  | step _ inductionHypothesis => exact inductionHypothesis (.ofOperand high derived) (Nat.le_of_lt high)

end Derives

namespace Rule

/-! ## Single tokens -/

theorem expect_obeys (wanted : Symbol) (complaint : Complaint) (tokens : List Token) (next : RefId) :
    Obeys (fun word => word = [.symbol wanted]) (expect wanted complaint · next) tokens := by
  rcases next_or (.symbol wanted) tokens with ⟨line, rest, rfl⟩ | other
  · refine Obeys.cons (fun rest => ?_) (obeys_done line next rest ?_)
    · rw [expect_eq]
      exact if_pos rfl
    · rfl
  · refine Obeys.of_head (obeys_refuse complaint tokens ?_) fun tokens' alike => ?_
    · exact ⟨[.symbol wanted], rfl⟩
    · rw [expect_eq]
      split
      · rename_i found line rest
        refine if_neg fun same => other _ alike line rest ?_
        rw [same]
      · rfl

theorem identifier_obeys (complaint : Complaint) (tokens : List Token) (next : RefId) :
    Obeys (fun word => ∃ name, word = [.identifier name]) (identifier complaint · next) tokens := by
  have viable : Viable (fun word => ∃ name, word = [.identifier name]) [] := ⟨[.identifier ""], "", rfl⟩
  rcases tokens with _ | ⟨⟨kind, line⟩, rest⟩
  · refine Obeys.of_head (obeys_refuse complaint [] viable) fun tokens' alike => ?_
    rw [eq_nil_of_head? alike, identifier_eq]
  · cases kind with
    | identifier name =>
        refine Obeys.cons (fun rest => ?_) (obeys_done ⟨name, line⟩ next rest ⟨name, rfl⟩)
        rw [identifier_eq]
    | _ =>
        refine Obeys.of_head (obeys_refuse complaint _ viable) fun tokens' alike => ?_
        rcases eq_cons_of_head? alike with ⟨behind, rfl⟩
        rw [identifier_eq]

/-! ## Expressions -/

mutual

theorem expression_obeys (tokens : List Token) (next : RefId) :
    Obeys (Derives .expression) (expression · next) tokens := by
  refine Obeys.of_head (Obeys.bind (chain_obeys (by decide) tokens next)
    (fun word derived => Word.viable_of (.ofOperation derived)) ?_) fun tokens' _ => expression_eq tokens' next
  intro used value middle rest split read derived
  have shorter : rest.length < tokens.length := Reading.length_lt read
  rcases next_or (.symbol .equal) rest with ⟨line, behind, rfl⟩ | other
  · have goesOn : ∀ source, Derives .expression source →
        Viable (fun word => Derives .expression (kinds used ++ .symbol .equal :: word)) source :=
      fun source sourceDerived => Word.viable_of (.assignment derived sourceDerived)
    cases value with
    | «variable» ref name =>
        refine Obeys.cons (fun rest => rfl) (Obeys.bind (expression_obeys behind middle) goesOn ?_)
        intro more source after rest _ _ sourceDerived
        dsimp only
        refine obeys_done _ _ rest ?_
        rw [List.append_nil]
        exact .assignment derived sourceDerived
    | _ =>
        -- The grammar allows the target that the parser refuses.
        refine Obeys.cons (fun rest => rfl) (Obeys.bind_beyond (expression_obeys behind middle) goesOn ?_)
        exact fun rest out => ⟨_, rfl, rfl⟩
  · refine Obeys.of_head (obeys_behind value middle rest (.ofOperation derived)) fun tokens' alike => ?_
    split
    · exact absurd ‹_› (other _ alike _ _)
    · rfl
termination_by tokens.length * 6 + 3
decreasing_by all_goals subst_vars; (try simp only [List.length_cons] at *); omega

theorem chain_obeys {level : Nat} (low : level ≤ 7) (tokens : List Token) (next : RefId) :
    Obeys (Derives (.operation level)) (chain level · next) tokens := by
  have goesOn : ∀ word, Derives .unary word → Derives (.operation level) word := fun word derived =>
    (Derives.ofUnary derived).lower low (Nat.le_refl 7)
  refine Obeys.of_head (Obeys.bind (unary_obeys tokens next) (fun word derived => Word.viable_of (goesOn word derived))
    ?_) fun tokens' _ => chain_eq level tokens' next
  intro used left middle rest split read derived
  have shorter : rest.length < tokens.length := Reading.length_lt read
  refine chainTail_obeys (Derives.ofUnary derived) low (Nat.le_refl 7) left rest middle ?_
  intro token behind connective _ _
  exact Nat.lt_succ_of_lt connective.level_bounds.2
termination_by tokens.length * 6 + 2
decreasing_by all_goals subst_vars; omega

/-- A tail goes on from a left operand that is not below the next operator. -/
theorem chainTail_obeys {level top : Nat} {before : Word} (derived : Derives (.operation top) before)
    (low : level ≤ top) (high : top ≤ 7) (left : Expr) (tokens : List Token) (next : RefId)
    (stops : Stops (top + 1) tokens) :
    Obeys (fun word => Derives (.operation level) (before ++ word)) (chainTail level left · next) tokens := by
  have finished : Derives (.operation level) before := derived.lower low high
  match tokens, stops with
  | [], _ =>
    refine Obeys.of_head (obeys_behind left next [] finished) fun tokens' alike => ?_
    rw [eq_nil_of_head? alike, chainTail_eq]
  | token :: rest, stops =>
    cases operator : Connective.ofKind? token.kind with
    | none =>
        refine Obeys.of_head (obeys_behind left next _ finished) fun tokens' alike => ?_
        rcases eq_cons_of_head? alike with ⟨behind, rfl⟩
        rw [chainTail_eq]
        dsimp only
        rw [operator]
    | some connective =>
        by_cases tooLow : connective.level < level
        · refine Obeys.of_head (obeys_behind left next _ finished) fun tokens' alike => ?_
          rcases eq_cons_of_head? alike with ⟨behind, rfl⟩
          rw [chainTail_eq]
          dsimp only
          rw [operator]
          exact if_pos tooLow
        · have fits : connective.level ≤ top := Nat.le_of_lt_succ (stops token rest connective rfl operator)
          have bounded : connective.level < 7 := connective.level_bounds.2
          have extended : ∀ right, Derives (.operation (connective.level + 1)) right →
              Derives (.operation connective.level) (before ++ token.kind :: right) := fun right derivedRight =>
            .operate (Connective.mem_operators operator) (derived.lower fits high) derivedRight
          have step : ∀ rest, chainTail level left (token :: rest) next =
              chain (connective.level + 1) rest next >>= fun right =>
                chainTail level (connective.apply token.line left right.value) right.rest right.next := fun rest => by
            rw [chainTail_eq]
            dsimp only
            rw [operator]
            exact if_neg tooLow
          refine Obeys.cons step (Obeys.bind (chain_obeys bounded rest next) (fun right derivedRight =>
            Word.viable_of ((extended right derivedRight).lower (Nat.le_of_not_lt tooLow) (Nat.le_of_lt bounded))) ?_)
          intro used right middle behind split read derivedRight
          have shorter : behind.length < rest.length := Reading.length_lt read
          have tail := chainTail_obeys (extended _ derivedRight) (Nat.le_of_not_lt tooLow) (Nat.le_of_lt bounded)
            (connective.apply token.line left right) behind middle (chain_sound bounded read).2
          refine tail.imp fun word whole => ?_
          rwa [List.append_assoc] at whole
termination_by tokens.length * 6
decreasing_by all_goals subst_vars; (try simp only [List.length_cons] at *); omega

theorem unary_obeys (tokens : List Token) (next : RefId) :
    Obeys (Derives .unary) (unary · next) tokens := by
  rcases tokens with _ | ⟨token, rest⟩
  · refine Obeys.of_head (obeys_refuse .expression [] ⟨_, Derives.unary_nil⟩) fun tokens' alike => ?_
    rw [eq_nil_of_head? alike, unary_eq]
  cases operator : UnaryOp.ofKind? token.kind with
  | some op =>
      have signed : ∀ operand, Derives .unary operand → Derives .unary (token.kind :: operand) :=
        fun operand derived => .signed (UnaryOp.mem_signs operator) derived
      have step : ∀ rest, unary (token :: rest) next = unary rest next >>= fun operand =>
          .ok ⟨.unary op token.line operand.value, operand.next, operand.rest⟩ := fun rest => by
        rw [unary_eq]
        dsimp only
        rw [operator]
      exact Obeys.cons step (Obeys.make (Expr.unary op token.line) (unary_obeys rest next) signed)
  | none =>
      have step : ∀ rest, unary (token :: rest) next = primary (token :: rest) next >>= fun callee =>
          callTail callee.value callee.rest callee.next := fun rest => by
        rw [unary_eq]
        dsimp only
        rw [operator]
      have whole : Obeys (Derives .unary) (fun tokens => primary tokens next >>= fun callee =>
          callTail callee.value callee.rest callee.next) (token :: rest) := by
        refine Obeys.bind (primary_obeys (token :: rest) next) (fun word derived =>
          Word.viable_of (.ofCall (.ofPrimary derived))) ?_
        intro used callee middle behind split read derived
        have shorter : behind.length < (token :: rest).length := Reading.length_lt read
        exact (callTail_obeys (.ofPrimary derived) callee behind middle).imp fun word whole => .ofCall whole
      refine whole.of_head fun tokens' alike => ?_
      rcases eq_cons_of_head? alike with ⟨behind, rfl⟩
      exact step behind
termination_by tokens.length * 6 + 1
decreasing_by all_goals (try simp only [List.length_cons] at *); omega

theorem callTail_obeys {before : Word} (derived : Derives .call before) (callee : Expr) (tokens : List Token)
    (next : RefId) : Obeys (fun word => Derives .call (before ++ word)) (callTail callee · next) tokens := by
  rcases next_or (.symbol .leftParen) tokens with ⟨line, rest, rfl⟩ | other
  · have applied : ∀ word, Then (Derives .arguments?) .rightParen word →
        Derives .call (before ++ .symbol .leftParen :: word) := by
      rintro _ ⟨list, derivedList, rfl⟩
      exact .apply derived derivedList
    have step : ∀ rest, callTail callee (⟨.symbol .leftParen, line⟩ :: rest) next =
        arguments rest next >>= fun list => callTail (.call callee list.value.2 list.value.1) list.rest list.next :=
      fun rest => by rw [callTail_eq]
    refine Obeys.cons step (Obeys.bind (arguments_obeys rest next) (fun word list =>
      Word.viable_of (applied word list)) ?_)
    intro used list middle behind split read word
    have shorter : behind.length < rest.length := Reading.length_lt read
    refine (callTail_obeys (applied _ word) (.call callee list.2 list.1) behind middle).imp fun more whole => ?_
    rwa [List.append_assoc] at whole
  · refine Obeys.of_head (obeys_behind callee next tokens derived) fun tokens' alike => ?_
    exact callTail_ends (other tokens' alike) callee next
termination_by tokens.length * 6
decreasing_by all_goals subst_vars; (try simp only [List.length_cons] at *); omega

theorem arguments_obeys (tokens : List Token) (next : RefId) :
    Obeys (Then (Derives .arguments?) .rightParen)
      (arguments · next) tokens := by
  rcases next_or (.symbol .rightParen) tokens with ⟨line, rest, rfl⟩ | other
  · refine Obeys.cons (fun rest => ?_) (obeys_done ([], line) next rest ⟨[], .noArguments, rfl⟩)
    rw [arguments_eq]
  · refine Obeys.of_head ((argumentList_obeys maxArity tokens next).imp ?_) fun tokens' alike => ?_
    · rintro _ ⟨list, derived, rfl⟩
      exact ⟨list, .someArguments derived, rfl⟩
    · rw [arguments_eq]
      split
      · exact absurd rfl (other _ alike _ _)
      · rfl
termination_by tokens.length * 6 + 5

theorem argumentList_obeys (room : Nat) (tokens : List Token) (next : RefId) :
    Obeys (Then (Derives .arguments) .rightParen) (argumentList room · next) tokens := by
  cases room with
  | zero =>
      have failed : argumentList 0 tokens next = .error ⟨.tooManyArguments, tokens.head?⟩ := by
        rw [argumentList_eq]
        rfl
      exact obeys_of_isBeyond failed rfl
  | succ room =>
      have closed : ∀ word, Derives .expression word →
          Then (Derives .arguments) .rightParen (word ++ [.symbol .rightParen]) :=
        fun word derived => ⟨word, .lastArgument derived, rfl⟩
      refine Obeys.of_head
        (Obeys.bind (expression_obeys tokens next) (fun word derived => ⟨_, closed word derived⟩) ?_)
        fun tokens' _ => argumentList_eq (room + 1) tokens' next
      intro used value middle rest split read derived
      have shorter : rest.length < tokens.length := Reading.length_lt read
      rcases next_or (.symbol .comma) rest with ⟨line, behind, rfl⟩ | noComma
      · have more : ∀ word, Then (Derives .arguments) .rightParen word →
            Then (Derives .arguments) .rightParen (kinds used ++ .symbol .comma :: word) := by
          rintro _ ⟨list, derivedList, rfl⟩
          exact ⟨_, .moreArguments derived derivedList, by rw [List.append_assoc]; rfl⟩
        refine Obeys.cons (fun rest => rfl) (Obeys.bind (argumentList_obeys room behind middle) (fun word list =>
          Word.viable_of (more word list)) ?_)
        intro others list after rest _ _ word
        dsimp only
        refine obeys_done _ _ rest ?_
        rw [List.append_nil]
        exact more _ word
      · rcases next_or (.symbol .rightParen) rest with ⟨line, behind, rfl⟩ | noParen
        · exact Obeys.cons (fun rest => rfl) (obeys_done ([value], line) middle behind (closed _ derived))
        · refine Obeys.of_head (obeys_refuse .argumentsClose rest ⟨_, closed _ derived⟩) fun tokens' alike => ?_
          split
          · exact absurd ‹_› (noComma _ alike _ _)
          · exact absurd ‹_› (noParen _ alike _ _)
          · rfl
termination_by tokens.length * 6 + 4
decreasing_by all_goals subst_vars; (try simp only [List.length_cons] at *); omega

theorem primary_obeys (tokens : List Token) (next : RefId) :
    Obeys (Derives .primary) (primary · next) tokens := by
  rcases tokens with _ | ⟨⟨kind, line⟩, rest⟩
  · refine Obeys.of_head (obeys_refuse .expression [] ⟨_, Derives.primary_nil⟩) fun tokens' alike => ?_
    rw [eq_nil_of_head? alike, primary_eq]
  by_cases opens : kind = .symbol .leftParen
  · subst opens
    have step : ∀ rest, primary (⟨.symbol .leftParen, line⟩ :: rest) next =
        expression rest next >>= fun inner => expect .rightParen .groupClose inner.rest inner.next >>= fun close =>
          .ok ⟨.group inner.value, close.next, close.rest⟩ := fun rest => by rw [primary_eq]
    refine Obeys.cons step (Obeys.bind (expression_obeys rest next) (fun inner derived => ⟨_, .group derived⟩) ?_)
    intro used inner middle behind _ _ derived
    refine Obeys.bind (expect_obeys .rightParen .groupClose behind middle) ?_ ?_
    · rintro _ rfl
      exact Word.viable_of (.group derived)
    · intro more closeLine after rest _ _ word
      refine obeys_done _ _ rest ?_
      rw [List.append_nil, word]
      exact .group derived
  by_cases named : ∃ name, kind = .identifier name
  · rcases named with ⟨name, rfl⟩
    refine Obeys.cons (fun rest => ?_) (obeys_done (.variable next ⟨name, line⟩) (next + 1) rest (.atom rfl))
    rw [primary_eq]
  have otherwise : ∀ rest, primary (⟨kind, line⟩ :: rest) next =
      match Constant.ofKind? kind with
      | some constant => .ok ⟨.constant constant, next, rest⟩
      | none => Parser.refuse .expression (⟨kind, line⟩ :: rest) := by
    intro rest
    rw [primary_eq]
    split
    · cases ‹_›
    · exact absurd ⟨_, congrArg Token.kind (List.cons.inj ‹_›).1⟩ named
    · exact absurd (congrArg Token.kind (List.cons.inj ‹_›).1) opens
    · cases ‹_ = _›
      rfl
  cases found : Constant.ofKind? kind with
  | some constant =>
      refine Obeys.cons (fun rest => ?_) (obeys_done (.constant constant) next rest (.atom (Constant.isAtom found)))
      rw [otherwise, found]
  | none =>
      refine Obeys.of_head (obeys_refuse .expression _ ⟨_, Derives.primary_nil⟩) fun tokens' alike => ?_
      rcases eq_cons_of_head? alike with ⟨behind, rfl⟩
      rw [otherwise, found]
termination_by tokens.length * 6
decreasing_by all_goals (try simp only [List.length_cons] at *); omega

end

end Rule

end ScopedScript

import ScopedScript.Proofs.Grammar.ExpressionRules
import ScopedScript.Proofs.Grammar.Showing
namespace ScopedScript

/-!
# Expressions that the parser must accept

The other direction: tokens that show a well-formed expression are read back as that expression, whatever
stands behind them, as long as it cannot belong to the expression.  What cannot depends on the level: an
opening parenthesis would make a callee of a primary, an operator would make an operand of a chain, and an
equals sign would make a target of a variable.

For operators that associate to the left the statement must not be about the end of reading, since the
left operand ends in the middle of a chain.  `ReadsChain` therefore says that reading a chain from an
expression on is the same as going on with its tail from that expression as left operand, and `ReadsSpine`
says the same of callees.
-/

open Spelling

/-- No operator of at least the given level comes next, and no opening parenthesis. -/
structure Ends (level : Nat) (tokens : List Token) : Prop where
  stops : Stops level tokens
  noCall : NoCall tokens

namespace Ends

variable {level : Nat} {tokens : List Token}

theorem weaken {higher : Nat} (fits : level ≤ higher) (ends : Ends level tokens) :
    Ends higher tokens :=
  ⟨fun token rest connective same operator =>
    Nat.lt_of_lt_of_le (ends.stops token rest connective same operator) fits, ends.noCall⟩

/-- An operator ends every operand above its level. -/
theorem before_operator (connective : Connective) (line : Nat) (rest : List Token) :
    Ends (connective.level + 1) (⟨connective.kind, line⟩ :: rest) := by
  refine ⟨?_, ?_⟩
  · intro token others other same operator
    cases same
    rw [Connective.ofKind?_eq_some_iff.mpr rfl] at operator
    cases operator
    exact Nat.lt_succ_self _
  · intro otherLine others same
    have kinds : connective.kind = .symbol .leftParen := congrArg Token.kind (List.cons.inj same).1
    cases connective with
    | logical op => cases kinds
    | binary op => cases op <;> cases kinds

/-- A symbol that is neither an operator nor an opening parenthesis ends every expression. -/
theorem before_symbol (s : Symbol) (line : Nat) (rest : List Token) (noCall : s ≠ .leftParen)
    (noOperator : Connective.ofKind? (.symbol s) = none) : Ends 1 (⟨.symbol s, line⟩ :: rest) := by
  refine ⟨?_, ?_⟩
  · intro token others connective same operator
    cases same
    rw [noOperator] at operator
    cases operator
  · intro otherLine others same
    cases same
    exact noCall rfl

end Ends

namespace Symbol

/-- Whether a symbol can stand behind a whole expression. -/
def closes : Symbol → Bool
  | rightParen | comma | semicolon => true
  | _ => false

/-- No expression begins with such a symbol. -/
theorem startsExpr_of_closes {s : Symbol} (closing : s.closes = true) :
    (Glyph.symbol s).startsExpr = false := by
  cases s <;> first | rfl | cases closing

end Symbol

namespace Expr

/-- A callee is read up to the argument lists behind it. -/
def ReadsSpine (e : Expr) : Prop :=
  ∀ tokens, Shows (ofExpr e) tokens → ∀ rest next, ∃ read after, read.bare = e.bare ∧
    Rule.unary (tokens ++ rest) next = Rule.callTail read rest after

/-- An operand of the tightest operators is read as a whole. -/
def ReadsUnary (e : Expr) : Prop :=
  ∀ tokens, Shows (ofExpr e) tokens → ∀ rest next, NoCall rest → ∃ read after, read.bare = e.bare ∧
    Rule.unary (tokens ++ rest) next = .ok ⟨read, after, rest⟩

/-- A left operand is read up to the operators behind it. -/
def ReadsChain (e : Expr) : Prop :=
  ∀ tokens, Shows (ofExpr e) tokens → ∀ level rest next, level ≤ e.level → Ends (e.level + 1) rest →
    ∃ read after, read.bare = e.bare ∧
      Rule.chain level (tokens ++ rest) next = Rule.chainTail level read rest after

/-- An expression is read as a whole when a symbol behind it closes it. -/
def ReadsWhole (e : Expr) : Prop :=
  ∀ tokens, Shows (ofExpr e) tokens → ∀ s line rest next, s.closes = true →
    ∃ read after, read.bare = e.bare ∧
      Rule.expression (tokens ++ ⟨.symbol s, line⟩ :: rest) next =
        .ok ⟨read, after, ⟨.symbol s, line⟩ :: rest⟩

/-- Expressions are read as lists of arguments. -/
def ReadsArguments (es : List Expr) : Prop :=
  ∀ tokens, Shows (ofExprs es) tokens → ∀ room line rest next, es.length ≤ room →
    ∃ read after, bareAll read = bareAll es ∧
      Rule.argumentList room (tokens ++ ⟨.symbol .rightParen, line⟩ :: rest) next =
        .ok ⟨(read, line), after, rest⟩

end Expr

namespace Rule

/-- A tail ends where no operator of its level follows. -/
theorem chainTail_ends {level : Nat} {rest : List Token} (ends : Ends level rest) (left : Expr)
    (next : RefId) : chainTail level left rest next = .ok ⟨left, next, rest⟩ := by
  rw [chainTail_eq]
  split
  · rfl
  · rename_i token behind
    split
    · rfl
    · rename_i connective operator
      rw [if_pos (ends.stops token behind connective rfl operator)]

/-- A callee ends where no parenthesis opens. -/
theorem callTail_ends {rest : List Token} (ends : NoCall rest) (callee : Expr) (next : RefId) :
    callTail callee rest next = .ok ⟨callee, next, rest⟩ := by
  rw [callTail_eq]
  split
  · exact absurd rfl (ends _ _)
  · rfl

/-- A primary is read before anything else is looked at. -/
theorem unary_of_primary {tokens rest : List Token} {next after : RefId} {value : Expr}
    (noOperator : ∀ token others, tokens = token :: others → UnaryOp.ofKind? token.kind = none)
    (read : primary tokens next = .ok ⟨value, after, rest⟩) :
    unary tokens next = callTail value rest after := by
  rw [unary_eq]
  split
  · rw [primary_eq] at read
    cases read
  · rename_i token rest
    rw [noOperator token rest rfl]
    dsimp only
    rw [read]
    rfl

theorem unary_variable (name : String) (line : Nat) (rest : List Token) (next : RefId) :
    unary (⟨.identifier name, line⟩ :: rest) next =
      callTail (.variable next ⟨name, line⟩) rest (next + 1) := by
  refine unary_of_primary ?_ ?_
  · intro token others same
    cases same
    rfl
  · rw [primary_eq]

/-- A variable that nothing can extend is a whole chain. -/
theorem chain_variable {rest : List Token} (ends : Ends 1 rest) (name : String) (line : Nat)
    (next : RefId) : chain 1 (⟨.identifier name, line⟩ :: rest) next =
      .ok ⟨.variable next ⟨name, line⟩, next + 1, rest⟩ := by
  rw [chain_eq, unary_variable, callTail_ends ends.noCall]
  exact chainTail_ends ends _ _

end Rule

namespace Expr

open Rule

/-! ## Callees -/

theorem readsSpine_constant (value : Constant) : ReadsSpine (.constant value) := by
  intro tokens shown rest next
  rcases shown.uncons with ⟨token, none, same, glyph, empty⟩
  cases empty.eq_nil
  subst same
  have found : Constant.ofKind? token.kind = some value := Constant.ofKind?_eq_some_iff.mpr glyph
  refine ⟨.constant value, next, rfl, ?_⟩
  refine unary_of_primary ?_ ?_
  · intro other others same
    cases same
    rcases token with ⟨kind, line⟩
    cases kind with
    | symbol s => cases s <;> cases found
    | _ => rfl
  · rw [primary_eq]
    rcases token with ⟨kind, line⟩
    cases kind with
    | symbol s => cases s <;> cases found
    | identifier _ => cases found
    | keyword k =>
        cases k <;> cases found <;> rfl
    | string body => cases found; rfl
    | number numeral => cases found; rfl

theorem readsSpine_variable (ref : RefId) (target : Identifier) :
    ReadsSpine (.variable ref target) := by
  intro tokens shown rest next
  rcases shown.name with ⟨line, none, same, empty⟩
  cases empty.eq_nil
  subst same
  exact ⟨.variable next ⟨target.name, line⟩, next + 1, rfl, unary_variable _ _ _ _⟩

theorem readsSpine_group {inner : Expr} (reads : ReadsWhole inner) :
    ReadsSpine (.group inner) := by
  intro tokens shown rest next
  rcases shown.symbol rfl with ⟨openLine, tail, same, shownTail⟩
  rcases shownTail.split with ⟨body, last, sameTail, shownBody, shownLast⟩
  rcases shownLast.symbol rfl with ⟨closeLine, none, sameLast, empty⟩
  cases empty.eq_nil
  subst same sameTail sameLast
  rcases reads body shownBody .rightParen closeLine rest next rfl with ⟨read, after, alike, answer⟩
  refine ⟨.group read, after, congrArg Expr.group alike, ?_⟩
  refine unary_of_primary ?_ ?_
  · intro other others same
    cases same
    rfl
  · rw [List.cons_append, List.append_assoc, List.cons_append, List.nil_append, primary_eq]
    dsimp only
    rw [answer]
    dsimp only [bind, Except.bind]
    rw [expect_eq]
    rfl

theorem readsSpine_call {callee : Expr} {line : Nat} {list : List Expr} (few : list.length ≤ maxArity)
    (readsCallee : ReadsSpine callee) (readsList : list ≠ [] → ReadsArguments list) :
    ReadsSpine (.call callee line list) := by
  intro tokens shown rest next
  rcases shown.split with ⟨front, tail, same, shownFront, shownTail⟩
  rcases shownTail.symbol rfl with ⟨openLine, inside, sameTail, shownInside⟩
  rcases shownInside.split with ⟨body, last, sameInside, shownBody, shownLast⟩
  rcases shownLast.symbol rfl with ⟨closeLine, none, sameLast, empty⟩
  cases empty.eq_nil
  subst same sameTail sameInside sameLast
  have arrange : front ++ ⟨.symbol .leftParen, openLine⟩ :: (body ++ [⟨.symbol .rightParen, closeLine⟩])
      ++ rest = front ++ ⟨.symbol .leftParen, openLine⟩ ::
        (body ++ ⟨.symbol .rightParen, closeLine⟩ :: rest) := by
    simp only [List.append_assoc, List.cons_append, List.nil_append]
  rw [arrange]
  rcases readsCallee front shownFront
    (⟨.symbol .leftParen, openLine⟩ :: (body ++ ⟨.symbol .rightParen, closeLine⟩ :: rest)) next with
    ⟨read, middle, alike, answer⟩
  have inParentheses : ∃ found after, bareAll found = bareAll list ∧
      arguments (body ++ ⟨.symbol .rightParen, closeLine⟩ :: rest) middle =
        .ok ⟨(found, closeLine), after, rest⟩ := by
    cases list with
    | nil =>
        cases shownBody.eq_nil
        refine ⟨[], middle, rfl, ?_⟩
        rw [arguments_eq]
        rfl
    | cons first others =>
        rcases readsList (List.cons_ne_nil _ _) body shownBody maxArity closeLine rest middle few with
          ⟨found, after, alikeToo, listed⟩
        refine ⟨found, after, alikeToo, ?_⟩
        rw [arguments_eq, ← listed]
        rcases shownBody.split with ⟨start, others, sameBody, shownStart, _⟩
        rcases shownStart.startsExpr with ⟨token, behind, sameStart, starts⟩
        subst sameBody sameStart
        split
        · rename_i otherLine others same
          cases same
          cases starts
        · rfl
  rcases inParentheses with ⟨found, after, alikeToo, answerToo⟩
  refine ⟨.call read closeLine found, after, ?_, ?_⟩
  · rw [bare, bare, alike, alikeToo]
  · rw [answer, callTail_eq]
    dsimp only
    rw [answerToo]
    rfl

/-! ## Operands -/

theorem readsUnary_of_spine {e : Expr} (reads : ReadsSpine e) : ReadsUnary e := by
  intro tokens shown rest next noCall
  rcases reads tokens shown rest next with ⟨read, after, alike, answer⟩
  exact ⟨read, after, alike, answer.trans (callTail_ends noCall read after)⟩

theorem readsUnary_unary {op : UnaryOp} {line : Nat} {operand : Expr} (reads : ReadsUnary operand) :
    ReadsUnary (.unary op line operand) := by
  intro tokens shown rest next noCall
  rcases shown.symbol rfl with ⟨opLine, tail, same, shownTail⟩
  subst same
  rcases reads tail shownTail rest next noCall with ⟨read, after, alike, answer⟩
  refine ⟨.unary op opLine read, after, ?_, ?_⟩
  · rw [bare, bare, alike]
  · rw [List.cons_append, unary_eq]
    dsimp only
    rw [UnaryOp.ofKind?_eq_some_iff.mpr rfl]
    dsimp only
    rw [answer]
    rfl

/-! ## Operators -/

theorem readsChain_of_unary {e : Expr} (reads : ReadsUnary e) : ReadsChain e := by
  intro tokens shown level rest next _ ends
  rcases reads tokens shown rest next ends.noCall with ⟨read, after, alike, answer⟩
  refine ⟨read, after, alike, ?_⟩
  rw [chain_eq, answer]
  rfl

theorem readsChain_apply {connective : Connective} {line : Nat} {left right : Expr}
    (readsLeft : ReadsChain left) (readsRight : ReadsChain right)
    (leftHigh : connective.level ≤ left.level) (rightHigh : connective.level < right.level) :
    ReadsChain (connective.apply line left right) := by
  intro tokens shown level rest next fits ends
  rw [connective.ofExpr_apply] at shown
  rw [connective.level_apply] at fits ends
  rcases shown.split with ⟨front, tail, same, shownFront, shownTail⟩
  rcases shownTail.uncons with ⟨⟨kind, opLine⟩, back, sameTail, glyph, shownBack⟩
  have isOperator : kind = connective.kind := by
    cases connective <;> cases kind <;> cases glyph <;> rfl
  subst same sameTail isOperator
  rw [List.append_assoc, List.cons_append]
  rcases readsLeft front shownFront level (⟨connective.kind, opLine⟩ :: (back ++ rest)) next
    (Nat.le_trans fits leftHigh)
    ((Ends.before_operator connective opLine _).weaken (Nat.succ_le_succ leftHigh)) with
    ⟨leftRead, middle, leftAlike, leftAnswer⟩
  rcases readsRight back shownBack (connective.level + 1) rest middle rightHigh
    (ends.weaken (Nat.succ_le_succ (Nat.le_of_lt rightHigh))) with
    ⟨rightRead, after, rightAlike, rightAnswer⟩
  refine ⟨connective.apply opLine leftRead rightRead, after, ?_, ?_⟩
  · rw [Connective.bare_apply, Connective.bare_apply, leftAlike, rightAlike]
  · rw [leftAnswer, chainTail_eq]
    dsimp only
    rw [Connective.ofKind?_eq_some_iff.mpr rfl]
    dsimp only
    rw [if_neg (Nat.not_lt_of_le fits), rightAnswer, chainTail_ends ends]
    rfl

/-! ## Whole expressions -/

theorem readsWhole_of_chain {e : Expr} (reads : ReadsChain e) (high : 1 ≤ e.level) :
    ReadsWhole e := by
  intro tokens shown s line rest next closing
  have ends : Ends 1 (⟨.symbol s, line⟩ :: rest) :=
    Ends.before_symbol s line rest (fun same => by subst same; cases closing)
      (by cases s <;> first | rfl | cases closing)
  rcases reads tokens shown 1 (⟨.symbol s, line⟩ :: rest) next high
    (ends.weaken (Nat.succ_le_succ (Nat.zero_le _))) with ⟨read, after, alike, answer⟩
  refine ⟨read, after, alike, ?_⟩
  rw [expression_eq, answer, chainTail_ends ends]
  cases s <;> first | rfl | cases closing

theorem readsWhole_assign {ref : RefId} {target : Identifier} {value : Expr}
    (reads : ReadsWhole value) : ReadsWhole (.assign ref target value) := by
  intro tokens shown s line rest next closing
  rcases shown.name with ⟨nameLine, tail, same, shownTail⟩
  rcases shownTail.symbol rfl with ⟨equalLine, back, sameTail, shownBack⟩
  subst same sameTail
  have ends : Ends 1 (⟨.symbol .equal, equalLine⟩ :: (back ++ ⟨.symbol s, line⟩ :: rest)) :=
    Ends.before_symbol .equal equalLine _ nofun rfl
  rcases reads back shownBack s line rest (next + 1) closing with ⟨read, after, alike, answer⟩
  refine ⟨.assign after ⟨target.name, nameLine⟩ read, after + 1, ?_, ?_⟩
  · rw [bare, bare, alike]
    rfl
  · rw [List.cons_append, List.cons_append, expression_eq, chain_variable ends]
    dsimp only [bind, Except.bind]
    rw [answer]

/-! ## Arguments -/

theorem readsArguments_cons {first : Expr} {others : List Expr} (reads : ReadsWhole first)
    (readsOthers : others ≠ [] → ReadsArguments others) : ReadsArguments (first :: others) := by
  intro tokens shown room line rest next few
  rcases shown.split with ⟨front, back, same, shownFront, shownBack⟩
  subst same
  cases room with
  | zero => cases few
  | succ room =>
      cases others with
      | nil =>
          cases shownBack.eq_nil
          rcases reads front shownFront .rightParen line rest next rfl with
            ⟨read, after, alike, answer⟩
          refine ⟨[read], after, ?_, ?_⟩
          · rw [bareAll, bareAll, alike]
            rfl
          · rw [List.append_nil, argumentList_eq]
            dsimp only
            rw [answer]
            rfl
      | cons second more =>
          rcases shownBack.symbol rfl with ⟨commaLine, tail, sameBack, shownTail⟩
          subst sameBack
          rcases reads front shownFront .comma commaLine
            (tail ++ ⟨.symbol .rightParen, line⟩ :: rest) next rfl with ⟨read, middle, alike, answer⟩
          rcases readsOthers (List.cons_ne_nil _ _) tail shownTail room line rest middle (Nat.le_of_succ_le_succ few)
            with ⟨readToo, after, alikeToo, answerToo⟩
          refine ⟨read :: readToo, after, ?_, ?_⟩
          · rw [bareAll, bareAll, alike, alikeToo]
          · rw [List.append_assoc, List.cons_append, argumentList_eq]
            dsimp only
            rw [answer]
            dsimp only [bind, Except.bind]
            rw [answerToo]

/-! ## Every expression -/

/-- An expression is read back in every place where its level lets it stand. -/
structure Reads (e : Expr) : Prop where
  spine : callLevel ≤ e.level → ReadsSpine e
  unary : unaryLevel ≤ e.level → ReadsUnary e
  chain : 1 ≤ e.level → ReadsChain e
  whole : ReadsWhole e

namespace Reads

variable {e : Expr}

theorem of_chain (reads : ReadsChain e) (high : 1 ≤ e.level) (low : e.level < unaryLevel) :
    Reads e :=
  ⟨fun tooHigh => absurd (Nat.lt_of_lt_of_le low (Nat.le_of_succ_le tooHigh)) (Nat.lt_irrefl _),
    fun tooHigh => absurd (Nat.lt_of_lt_of_le low tooHigh) (Nat.lt_irrefl _),
    fun _ => reads, readsWhole_of_chain reads high⟩

theorem of_unary (reads : ReadsUnary e) (level : e.level = unaryLevel) : Reads e :=
  ⟨fun tooHigh => absurd (level ▸ tooHigh) (by decide), fun _ => reads,
    fun _ => readsChain_of_unary reads,
    readsWhole_of_chain (readsChain_of_unary reads) (by rw [level]; decide)⟩

theorem of_spine (reads : ReadsSpine e) (high : callLevel ≤ e.level) : Reads e :=
  have unary := readsUnary_of_spine reads
  ⟨fun _ => reads, fun _ => unary, fun _ => readsChain_of_unary unary,
    readsWhole_of_chain (readsChain_of_unary unary) (Nat.le_trans (by decide) high)⟩

theorem apply (connective : Connective) (line : Nat) {left right : Expr} (readsLeft : Reads left)
    (readsRight : Reads right) (leftHigh : connective.level ≤ left.level)
    (rightHigh : connective.level < right.level) : Reads (connective.apply line left right) := by
  have above := connective.level_bounds
  refine of_chain (readsChain_apply (readsLeft.chain (Nat.le_trans above.1 leftHigh))
    (readsRight.chain (Nat.le_of_lt (Nat.lt_of_le_of_lt above.1 rightHigh))) leftHigh rightHigh) ?_ ?_
  · rw [connective.level_apply]
    exact above.1
  · rw [connective.level_apply]
    exact above.2

end Reads

/-- What stands above calls can be called. -/
theorem callLevel_le_primaryLevel : callLevel ≤ primaryLevel := by decide

mutual

/-- Every well-formed expression is read back. -/
theorem reads : ∀ e : Expr, e.WellFormed → Reads e
  | .constant value, _ => .of_spine (readsSpine_constant value) callLevel_le_primaryLevel
  | .group inner, wellFormed =>
      .of_spine (readsSpine_group (reads inner wellFormed).whole) callLevel_le_primaryLevel
  | .unary _ _ operand, ⟨wellFormed, high⟩ =>
      .of_unary (readsUnary_unary ((reads operand wellFormed).unary high)) rfl
  | .binary op line left right, ⟨leftFormed, rightFormed, leftHigh, rightHigh⟩ =>
      .apply (.binary op) line (reads left leftFormed) (reads right rightFormed) leftHigh rightHigh
  | .logical op left right, ⟨leftFormed, rightFormed, leftHigh, rightHigh⟩ =>
      .apply (.logical op) 0 (reads left leftFormed) (reads right rightFormed) leftHigh rightHigh
  | .variable ref target, _ =>
      .of_spine (readsSpine_variable ref target) callLevel_le_primaryLevel
  | .assign _ _ value, wellFormed =>
      ⟨nofun, nofun, nofun, readsWhole_assign (reads value wellFormed).whole⟩
  | .call callee _ list, ⟨calleeFormed, high, few, listFormed⟩ =>
      .of_spine (readsSpine_call few ((reads callee calleeFormed).spine high)
        (readsArguments list listFormed)) (Nat.le_refl _)

/-- Well-formed expressions are read back as arguments. -/
theorem readsArguments : ∀ es : List Expr, AllWellFormed es → es ≠ [] → ReadsArguments es
  | [], _, notEmpty => absurd rfl notEmpty
  | first :: rest, ⟨wellFormed, restFormed⟩, _ =>
      readsArguments_cons (reads first wellFormed).whole (readsArguments rest restFormed)

end

end Expr

end ScopedScript

import ScopedScript.Proofs.Grammar.ProgramRules
import ScopedScript.Proofs.Lexing.WrittenNumbers
import ScopedScript.Proofs.Machine.Runs
import ScopedScript.Proofs.Number.WrittenForms
import ScopedScript.Session
import ScopedScript.Token.Listing
namespace ScopedScript

/-!
# Printed numbers read back

There are no negative numerals: a double with a sign bit is printed as a minus sign and the numeral of its
negation, and read as an operator and its operand.  The operator negates the operand again, which gives the
same double.

A listing shows the literals of number tokens, which have no sign.
-/

open Binary64 (hasSign ofFloat worth? toInt64)

namespace Expr

/-- The expression that a printed number is read as. -/
def ofNumber (x : Float) : Expr :=
  if hasSign x then .unary .negate 1 (.constant (.number (-x))) else .constant (.number x)

end Expr

/-! ## Reading a number -/

namespace Rule

section Number

variable (numeral : String) (next : RefId) (line lineToo : Nat) (rest : List Token)

/-- The constant of a numeral. -/
def numeralConstant (numeral : String) : Expr :=
  .constant (.number (Decimal.ofNumeral numeral.toList).toFloat)

/-- A numeral in front of a semicolon is a constant. -/
theorem unary_numeral :
    unary (⟨.number numeral, line⟩ :: ⟨.symbol .semicolon, lineToo⟩ :: rest) next =
      .ok ⟨numeralConstant numeral, next, ⟨.symbol .semicolon, lineToo⟩ :: rest⟩ := by
  rw [unary_eq]
  change (primary _ next >>= fun callee => callTail callee.value callee.rest callee.next) = _
  rw [primary_eq]
  change callTail (numeralConstant numeral) (⟨.symbol .semicolon, lineToo⟩ :: rest) next = _
  rw [callTail_eq]

/-- A minus sign in front of it is an operator. -/
theorem unary_negated {operand : Parsed Expr} {tokens : List Token}
    (answered : unary tokens next = .ok operand) :
    unary (⟨.symbol .minus, line⟩ :: tokens) next =
      .ok ⟨.unary .negate line operand.value, operand.next, operand.rest⟩ := by
  rw [unary_eq]
  change (unary tokens next >>= fun operand => _) = _
  rw [answered]
  rfl

/-- What is read as a unary expression in front of the last semicolon is a program, if it does not begin as
another statement. -/
theorem parse_unary {tokens : List Token} {value : Expr} (filled : tokens ≠ [])
    (plain : declaration tokens next = expressionStatement tokens next)
    (answered : unary tokens next = .ok ⟨value, next, [⟨.symbol .semicolon, line⟩]⟩) :
    parse tokens next = .ok ([.expression value], next) := by
  have chained : chain 1 tokens next = .ok ⟨value, next, [⟨.symbol .semicolon, line⟩]⟩ := by
    rw [chain_eq, answered]
    change chainTail 1 value [⟨.symbol .semicolon, line⟩] next = _
    rw [chainTail_eq]
    rfl
  have expressed : expression tokens next = .ok ⟨value, next, [⟨.symbol .semicolon, line⟩]⟩ := by
    rw [expression_eq, chained]
    rfl
  have closed : expect .semicolon .expressionEnd [⟨.symbol .semicolon, line⟩] next = .ok ⟨line, next, []⟩ := by
    rw [expect_eq]
    rfl
  have stated : expressionThen .semicolon .expressionEnd tokens next = .ok ⟨value, next, []⟩ := by
    rw [expressionThen_eq, expressed]
    change (expect .semicolon .expressionEnd [⟨.symbol .semicolon, line⟩] next >>= fun close => _) = _
    rw [closed]
    rfl
  have ended : parse [] next = .ok ([], next) := by rw [parse_eq]
  obtain ⟨first, others, rfl⟩ := List.exists_cons_of_ne_nil filled
  rw [parse_eq]
  dsimp only
  rw [plain, expressionStatement_eq, stated]
  change (parse [] next >>= fun others => _) = _
  rw [ended]
  rfl

/-- A numeral with its sign, in front of a semicolon, is an expression statement. -/
theorem parse_numeral (negative : Bool) :
    parse (signTokens negative ++ [⟨.number numeral, 1⟩, ⟨.symbol .semicolon, 1⟩]) next =
      .ok ([.expression
        (if negative then .unary .negate 1 (numeralConstant numeral) else numeralConstant numeral)], next) := by
  have operand := unary_numeral numeral next 1 1 []
  cases negative with
  | false =>
      refine parse_unary next 1 (List.cons_ne_nil _ _) ?_ operand
      rw [declaration_eq]
      change statement _ next = _
      rw [statement_eq]
      rfl
  | true =>
      refine parse_unary next 1 (List.cons_ne_nil _ _) ?_ (unary_negated next 1 operand)
      rw [declaration_eq]
      change statement _ next = _
      rw [statement_eq]
      rfl

end Number

end Rule

section Finite

variable {x : Float}

/-- What is read of a printed double. -/
theorem readProgram_printed (finite : x.isFinite = true) (next : RefId) :
    readProgram ((Value.number x).render ++ ";") next = .ok ([.expression (.ofNumber x)], next) := by
  obtain ⟨negative, significand, exponent, view⟩ := Binary64.exists_finite finite
  obtain ⟨numeral, printed, q, digits, rounds⟩ := NumberFormat.exists_printed view
  have text : (Value.number x).render ++ ";" =
      String.ofList (NumberFormat.signed negative numeral ++ [';']) := by
    rw [← printed, String.ofList_append, String.ofList_toList]
    rfl
  have expression : Expr.ofNumber x = if negative then .unary .negate 1 (Rule.numeralConstant (String.ofList numeral))
      else Rule.numeralConstant (String.ofList numeral) := by
    rw [Expr.ofNumber, Binary64.hasSign_eq view, Rule.numeralConstant, String.toList_ofList]
    cases negative with
    | false =>
        have same := Denotes.toFloat_eq ⟨q, digits, rounds⟩ view
        rw [same]
        rfl
    | true =>
        have same := Denotes.toFloat_eq ⟨q, digits, rounds⟩ (Binary64.ofFloat_neg view)
        rw [same]
        rfl
  rw [readProgram, text, tokenize_numeral_statement negative digits]
  dsimp only
  rw [Rule.parse_numeral, expression]

/-- What the expression evaluates to. -/
theorem evaluates_ofNumber (finite : x.isFinite = true) (state : State) (stack : ValueStack) :
    ∃ steps, Config.step^[steps] ⟨state, .evaluate (.ofNumber x) stack⟩ = ⟨state, .value (.number x) stack⟩ := by
  unfold Expr.ofNumber
  split_ifs
  · refine ⟨3, ?_⟩
    have twice : - -x = x := Binary64.neg_neg_of_isFinite finite
    nth_rewrite 2 [← twice]
    rfl
  · exact ⟨1, rfl⟩

/-- A listed literal is one token with this literal. -/
theorem tokenize_listed {numeral : String} (literal : (TokenKind.number numeral).literal? = some (.number x))
    (finite : x.isFinite = true) :
    ∃ again, tokenize (TokenLiteral.number x).listed = .ok ⟨[⟨.number again, 1⟩], 1⟩ ∧
      (TokenKind.number again).literal? = some (.number x) := by
  have same : (Decimal.ofNumeral numeral.toList).toFloat = x :=
    TokenLiteral.number.inj (Option.some.inj literal)
  have unsigned := (Decimal.isNearest_toFloat (Decimal.ofNumeral numeral.toList)).unsigned
  rw [same] at unsigned
  obtain ⟨negative, significand, exponent, view⟩ := Binary64.exists_finite finite
  obtain rfl := (Binary64.hasSign_eq view).symm.trans (Binary64.hasSign_of_unsigned unsigned)
  obtain ⟨q, digits, rounds⟩ := NumberFormat.denotes_listed view
  have tokenized := tokenize_numeral digits
  rw [String.ofList_toList] at tokenized
  refine ⟨_, tokenized, ?_⟩
  rw [TokenKind.literal?, Denotes.toFloat_eq ⟨q, digits, rounds⟩ view]

end Finite

/-- Printed numbers read back.  Every finite double is printed as a text that is, in front of a semicolon, one
expression statement which evaluates to the same double: a number, or the negation of one where the sign bit is
set.  The literal of a number token is listed as the numeral of one token with the same literal.  Listed whole
numbers below `2 ^ 63` are the digits of the integer of sixty-four bits that they are converted to, and the
conversion is exact. -/
theorem printed_numbers_read_back :
    (∀ x : Float, x.isFinite = true →
      (∀ next, readProgram ((Value.number x).render ++ ";") next = .ok ([.expression (.ofNumber x)], next)) ∧
      ∀ state stack, ∃ steps,
        Config.step^[steps] ⟨state, .evaluate (.ofNumber x) stack⟩ = ⟨state, .value (.number x) stack⟩) ∧
    (∀ (numeral : String) (x : Float), (TokenKind.number numeral).literal? = some (.number x) →
      x.isFinite = true →
      ∃ again, tokenize (TokenLiteral.number x).listed = .ok ⟨[⟨.number again, 1⟩], 1⟩ ∧
        (TokenKind.number again).literal? = some (.number x)) ∧
    ∀ (x : Float) (k : ℤ), worth? (ofFloat x) = some (k : ℚ) → |k| < 2 ^ 63 →
      (toInt64 (ofFloat x)).toInt = k ∧
        NumberFormat.listed x = toString (toInt64 (ofFloat x)).toInt ++ ".0" := by
  refine ⟨fun x finite => ⟨readProgram_printed finite, evaluates_ofNumber finite⟩, ?_, ?_⟩
  · intro numeral x literal finite
    exact tokenize_listed literal finite
  · intro x k worth small
    exact ⟨Binary64.toInt_toInt64 worth small, NumberFormat.listed_eq_toInt64 worth small⟩

/-- The printed form of -2.5 is read back, and so are the listed forms of the literal of `2.50` and of 3, which
is converted to an integer. -/
theorem printed_numbers_read_back_with_sign :
    (Float.ofBits 0xC004000000000000).isFinite = true ∧
      readProgram ((Value.number (Float.ofBits 0xC004000000000000)).render ++ ";") 0 =
        .ok ([.expression (.ofNumber (Float.ofBits 0xC004000000000000))], 0) ∧
      (∃ again, tokenize (TokenLiteral.number (Decimal.ofNumeral "2.50".toList).toFloat).listed =
          .ok ⟨[⟨.number again, 1⟩], 1⟩ ∧
        (TokenKind.number again).literal? = (TokenKind.number "2.50").literal?) ∧
      (toInt64 (ofFloat (Float.ofBits 0x4008000000000000))).toInt = 3 := by
  have minus : (Float.ofBits 0xC004000000000000).isFinite = true := by decide
  have literal : (Decimal.ofNumeral "2.50".toList).toFloat.isFinite = true := by decide
  have three : worth? (ofFloat (Float.ofBits 0x4008000000000000)) = some ((3 : ℤ) : ℚ) := by
    have view : ofFloat (Float.ofBits 0x4008000000000000) = .finite false 6755399441055744 (-51) := by decide
    have value : (6755399441055744 : ℚ) * 2 ^ (-51 : ℤ) = 3 := by norm_num
    rw [view]
    exact congrArg some value
  refine ⟨minus, (printed_numbers_read_back.1 _ minus).1 0, ?_, ?_⟩
  · exact printed_numbers_read_back.2.1 "2.50" _ rfl literal
  · exact (printed_numbers_read_back.2.2 _ 3 three (by decide)).1

end ScopedScript

import ScopedScript.Proofs.Descent.Meets
import ScopedScript.Proofs.Descent.Procedures
namespace ScopedScript

/-!
# Levels of operators, one by one

The grammar reads all operators of at least a given level in one chain.  The parser has one loop for each
level, inside the loop of the level below it.  Both read the same: the operators of a level and above are
those above it, and then those of the level itself with what follows them.
-/

namespace Rule

/-- The tail of a chain is the tail of the level above, and then its own. -/
theorem chainTail_succ (level : Nat) (left : Expr) (tokens : List Token) (next : RefId) :
    chainTail level left tokens next = (do
      let out ← chainTail (level + 1) left tokens next
      chainTail level out.value out.rest out.next) := by
  rcases tokens with _ | ⟨token, rest⟩
  · rw [chainTail_eq (level + 1)]
    rfl
  · rw [chainTail_eq (level + 1)]
    dsimp only
    cases found : Connective.ofKind? token.kind with
    | none => rfl
    | some connective =>
        dsimp only
        by_cases below : connective.level < level + 1
        · rw [if_pos below]
          rfl
        · rw [if_neg below, chainTail_eq level, bind_assoc]
          dsimp only
          rw [found]
          dsimp only
          rw [if_neg (fun lower => below (Nat.lt_succ_of_lt lower))]
          cases read : chain (connective.level + 1) rest next with
          | error _ => rfl
          | ok right =>
              have shorter := Reading.length_lt read
              exact chainTail_succ level _ right.rest right.next
termination_by tokens.length
decreasing_by simp only [List.length_cons]; omega

/-- A chain begins with a chain of the level above. -/
theorem chain_succ (level : Nat) (tokens : List Token) (next : RefId) :
    chain level tokens next = (do
      let first ← chain (level + 1) tokens next
      chainTail level first.value first.rest first.next) := by
  rw [chain_eq level, chain_eq (level + 1), bind_assoc]
  exact congrArg (unary tokens next >>= ·) (funext fun first => chainTail_succ level _ _ _)

/-- No operator is on the level of the unary ones, so a chain of that level is one operand. -/
theorem chain_unaryLevel (tokens : List Token) (next : RefId) :
    chain Expr.unaryLevel tokens next = unary tokens next := by
  have stays : ∀ first : Parsed Expr,
      chainTail Expr.unaryLevel first.value first.rest first.next = .ok first := by
    rintro ⟨left, next', rest⟩
    rw [chainTail_eq]
    split
    · rename_i same
      cases same
      rfl
    · rename_i token behind same
      cases same
      dsimp only
      split
      · rfl
      · rename_i connective _
        exact if_pos connective.level_bounds.2
  rw [chain_eq, funext stays]
  cases unary tokens next <;> rfl

end Rule

namespace Descent

namespace Level

/-- How tightly the operators of a level bind. -/
def number : Level → Nat
  | or => 1
  | and => 2
  | equality => 3
  | comparison => 4
  | term => 5
  | factor => 6

theorem number_lt (level : Level) : level.number < Expr.unaryLevel := by
  cases level <;> decide

/-- The operator that a token stands for in a table. -/
def find (kind : TokenKind) : List (Wanted × Connective) → Option Connective
  | [] => none
  | (wanted, connective) :: others => if wanted.fits kind then some connective else find kind others

/-- The table of a level has exactly the operators of its number. -/
theorem find_operators (level : Level) (kind : TokenKind) :
    find kind level.operators = (Connective.ofKind? kind).filter (·.level == level.number) := by
  cases kind with
  | symbol s => cases level <;> cases s <;> rfl
  | keyword k => cases level <;> cases k <;> rfl
  | _ => cases level <;> rfl

end Level

section

variable {α : Type} {tokens : List Token} {active : List Entry} {used rest : List Token} {next : RefId}
  {second : Option Connective → Parsing α} {answer : Except SyntaxError (Parsed α)}

/-- The first operator of a table that fits is used up, if there is one. -/
theorem meets_acceptOperator_table (table : List (Wanted × Connective))
    (hit : ∀ token behind connective, rest = token :: behind → Level.find token.kind table = some connective →
      Meets tokens active (second (some connective)) ⟨token :: used, behind, next⟩ answer)
    (miss : (∀ token behind, rest = token :: behind → Level.find token.kind table = none) →
      Meets tokens active (second none) ⟨used, rest, next⟩ answer) :
    Meets tokens active (acceptOperator table >>= second) ⟨used, rest, next⟩ answer := by
  induction table with
  | nil => exact (passes_pure none _).meets_bind (miss fun _ _ _ => rfl)
  | cons entry others inductionHypothesis =>
      rcases entry with ⟨wanted, connective⟩
      rw [acceptOperator, bind_assoc]
      rcases wanted.comesNext_or rest with ⟨token, behind, follows, fits⟩ | misses
      · subst follows
        refine (passes_accept fits).meets_bind ?_
        exact (passes_pure (some connective) _).meets_bind (hit token behind connective rfl (if_pos fits))
      · refine (passes_accept_of_misses misses).meets_bind ?_
        have skipped : ∀ token behind, rest = token :: behind →
            Level.find token.kind ((wanted, connective) :: others) = Level.find token.kind others := by
          rintro token behind rfl
          exact if_neg (Bool.eq_false_iff.mp misses)
        refine inductionHypothesis (fun token behind connective follows found => ?_) fun none => ?_
        · exact hit token behind connective follows ((skipped token behind follows).trans found)
        · exact miss fun token behind follows => (skipped token behind follows).trans (none token behind follows)

/-- The operator of a level is used up, if one comes next. -/
theorem meets_acceptOperator {level : Level}
    (hit : ∀ token behind connective, rest = token :: behind → Connective.ofKind? token.kind = some connective →
      connective.level = level.number →
      Meets tokens active (second (some connective)) ⟨token :: used, behind, next⟩ answer)
    (miss : (∀ token behind connective, rest = token :: behind →
        Connective.ofKind? token.kind = some connective → connective.level ≠ level.number) →
      Meets tokens active (second none) ⟨used, rest, next⟩ answer) :
    Meets tokens active (acceptOperator level.operators >>= second) ⟨used, rest, next⟩ answer := by
  refine meets_acceptOperator_table _ (fun token behind connective follows found => ?_) fun none => miss ?_
  · rw [Level.find_operators, Option.filter_eq_some_iff] at found
    exact hit token behind connective follows found.1 (beq_iff_eq.mp found.2)
  · intro token behind connective follows operator same
    have absent := none token behind follows
    rw [Level.find_operators, operator, Option.filter_some, same, beq_self_eq_true] at absent
    cases absent

end

end Descent

end ScopedScript

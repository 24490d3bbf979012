import ScopedScript.Proofs.Descent.Expressions
import ScopedScript.Proofs.Descent.Statements
namespace ScopedScript

/-!
# The parser ends within its tokens

A rule that is entered has some tokens left and a rank.  Together they are its weight, which falls from every
rule under way to the next one inside of it: either a token was used up in between, or the rank is lower.  So
the depth of calls is bounded by the number of tokens, and a rule inside of itself has used up a token.

The induction is on the fuel.  One step of it is `meets_body`, which says of every procedure that it meets its
answer when its calls do.
-/

namespace Descent

section

variable {tokens : List Token} {active : List Entry} {call : Calls} {size : Nat}

/-- The body of a procedure meets the answer expected of it. -/
theorem meets_body (procedure : Procedure) (place : Place) (ready : procedure.Ready place.rest)
    (calls : CallsMeet tokens active call place.rest.length procedure.label.rank) :
    Meets tokens active (body call procedure) place (procedure.expected place.rest place.next) := by
  cases procedure with
  | programLoop done => exact meets_programLoop calls
  | declaration => exact meets_declaration calls
  | statement => exact meets_statement calls
  | parameterLoop done => exact meets_parameterLoop calls
  | blockLoop done => exact meets_blockLoop calls
  | printLoop done => exact meets_printLoop calls
  | expression => exact calls.deeper .assignment trivial (by decide)
  | assignment => exact meets_assignment calls
  | level l => exact meets_level calls
  | levelLoop l left => exact meets_levelLoop ready calls
  | unary => exact meets_unary calls
  | callLoop callee => exact meets_callLoop calls
  | argumentLoop done => exact meets_argumentLoop calls

/-! ## Weights -/

/-- How much a rule may still do: it counts the tokens left, and its rank among those with as many. -/
def Entry.weight (size : Nat) (entry : Entry) : Nat := (size - entry.position) * 13 + entry.label.rank

/-- Every rule under way weighs less than those around it. -/
def Descending (size : Nat) (active : List Entry) : Prop :=
  active.Pairwise fun newer older => newer.weight size < older.weight size

/-- A rule inside of itself began further on. -/
theorem Descending.fine {position : Nat} (descending : Descending size active) :
    Event.Fine size ⟨position, .enter active⟩ := by
  refine List.Pairwise.imp ?_ descending
  intro newer older lighter same
  unfold Entry.weight at lighter
  rw [same] at lighter
  omega

/-- A rule that weighs less than the innermost one may be entered inside of it. -/
theorem Descending.enter {inner outer : Entry} (descending : Descending size (outer :: active))
    (lighter : inner.weight size < outer.weight size) : Descending size (inner :: outer :: active) := by
  refine List.pairwise_cons.mpr ⟨fun entry among => ?_, descending⟩
  rcases List.mem_cons.mp among with rfl | further
  · exact lighter
  · exact Nat.lt_trans lighter ((List.pairwise_cons.mp descending).1 entry further)

/-- Where a call is allowed, the weight falls. -/
theorem weight_lt {place placeToo : Place} {cursor cursorToo : Cursor} {label labelToo : Label}
    (stands : place.Stands tokens cursor) (standsToo : placeToo.Stands tokens cursorToo)
    (allowed : placeToo.rest.length < place.rest.length ∨
      placeToo.rest.length = place.rest.length ∧ labelToo.rank < label.rank) :
    Entry.weight tokens.length ⟨labelToo, cursorToo.position⟩ < Entry.weight tokens.length ⟨label, cursor.position⟩ := by
  have left := stands.size
  have leftToo := standsToo.size
  have rank := label.rank_lt
  have rankToo := labelToo.rank_lt
  unfold Entry.weight
  rw [stands.position, standsToo.position]
  dsimp only
  omega

/-! ## Runs -/

/-- A procedure meets its answer with more fuel than it weighs. -/
theorem run_meets {fuel : Nat} (procedure : Procedure) {place : Place} {cursor : Cursor}
    (ready : procedure.Ready place.rest) (stands : place.Stands tokens cursor)
    (descending : Descending tokens.length (⟨procedure.label, cursor.position⟩ :: active))
    (enough : Entry.weight tokens.length ⟨procedure.label, cursor.position⟩ < fuel) :
    EndsAs tokens (procedure.expected place.rest place.next) (run fuel procedure tokens active cursor) := by
  induction fuel generalizing procedure place cursor active with
  | zero => exact absurd enough (Nat.not_lt_zero _)
  | succ fuel inductionHypothesis =>
      refine meets_body procedure place ready ?_ _ (stands.record descending.fine)
      intro inner placeToo readyToo allowed cursorToo standsToo
      have lighter := weight_lt stands standsToo allowed
      exact inductionHypothesis inner readyToo standsToo (descending.enter lighter)
        (Nat.lt_of_lt_of_le lighter (Nat.le_of_lt_succ enough))

/-- The parser ends as the grammar says. -/
theorem parse_meets (tokens : List Token) (next : RefId) {fuel : Nat} (enough : 13 * (tokens.length + 1) ≤ fuel) :
    EndsAs tokens (Rule.programFrom [] tokens next) (parse fuel tokens next) := by
  have stands : Place.Stands tokens ⟨[], tokens, next⟩ ⟨0, next, []⟩ :=
    ⟨rfl, rfl, rfl, Nat.zero_le _, List.pairwise_singleton _ _, nofun⟩
  refine run_meets (.programLoop []) trivial stands (List.pairwise_singleton _ _) ?_
  change (tokens.length - 0) * 13 + 12 < fuel
  omega

end

end Descent

/-- The parser ends within its tokens.  With fuel for as many calls inside of each other as there are tokens, times
the number of ranks, it accepts or refuses just as the grammar does: it neither runs out of fuel nor looks for a
token that is not there.  Its cursor is orderly all the time, and behind a program it stands at the end of the
text. -/
theorem parse_ends_within_tokens (tokens : List Token) (next : RefId) (fuel : Nat)
    (enough : 13 * (tokens.length + 1) ≤ fuel) :
    ∃ cursor : Descent.Cursor, cursor.Orderly tokens.length ∧
      match parse tokens next with
      | .ok (program, free) =>
        Descent.parse fuel tokens next = .done program cursor ∧ cursor.position = tokens.length ∧ cursor.next = free
      | .error error => Descent.parse fuel tokens next = .refused error cursor := by
  have ends := Descent.parse_meets tokens next enough
  rw [Rule.programFrom_nil] at ends
  generalize Descent.parse fuel tokens next = outcome at ends ⊢
  generalize parse tokens next = answer at ends ⊢
  cases answer with
  | error error =>
      cases ends with
      | refused orderly => exact ⟨_, orderly, rfl⟩
  | ok result =>
      cases ends with
      | done stands =>
          refine ⟨_, stands.orderly, rfl, ?_, stands.next⟩
          rw [stands.position, stands.size]
          rfl

/-- A block with a list of expressions, calls and operators in a row, groups and a block inside of it, and a function of
two parameters behind it. -/
theorem parse_ends_within_tokens_nested :
    let word (name : String) : Token := ⟨.identifier name, 1⟩
    let mark (symbol : Symbol) : Token := ⟨.symbol symbol, 1⟩
    let printing : List Token := [⟨.keyword .printWord, 1⟩, word "a", mark .minus, mark .leftParen, word "b", mark .minus,
      word "c", mark .rightParen, mark .minus, word "d", mark .comma, word "f", mark .leftParen, word "x", mark .comma,
      word "y", mark .rightParen, mark .leftParen, mark .rightParen, mark .semicolon]
    let inside : List Token := [mark .leftBrace, word "e", mark .equal, word "g", mark .equal, ⟨.keyword .nilWord, 1⟩,
      mark .semicolon, mark .rightBrace]
    let function : List Token := [⟨.keyword .funWord, 1⟩, word "h", mark .leftParen, word "p", mark .comma, word "q",
      mark .rightParen, mark .leftBrace, mark .rightBrace]
    let tokens := [mark .leftBrace] ++ printing ++ inside ++ [mark .rightBrace] ++ function
    ∃ (cursor : Descent.Cursor) (program : List Stmt), program.length = 2 ∧ cursor.Orderly 39 ∧
      cursor.position = 39 ∧ Descent.parse 520 tokens 0 = .done program cursor := by
  intro word mark printing inside function tokens
  have reads : (Descent.parse 520 tokens 0).value?.map List.length = some 2 := by decide +kernel
  rcases parse_ends_within_tokens tokens 0 520 (by decide) with ⟨cursor, orderly, ends⟩
  split at ends
  · rename_i program free _
    rcases ends with ⟨done, atEnd, _⟩
    rw [done] at reads
    exact ⟨cursor, program, Option.some.inj reads, orderly, atEnd, done⟩
  · rw [ends] at reads
    cases reads

end ScopedScript

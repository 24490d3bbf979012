import ScopedScript.Proofs.Grammar.Ladder
import ScopedScript.Proofs.Grammar.References
import ScopedScript.Proofs.Machine.Returns
namespace ScopedScript

/-!
# `for` as `while`

A `for` can be written as a block that begins with the initializer and goes on with a `while`, whose body is a
block with the body of the `for` and its increment.  A missing condition is the constant `true`.  One program
desugars to another when some of its `for` statements, wherever they stand, are written so.

The grammar has the new program when it has the old one, and the references are the same, if not in the same
order: an increment now comes behind the body.
-/

namespace Stmt

/-- What a `for` means, without a `for`. -/
def asWhile (first : Option Stmt) (condition increment : Option Expr) (body : Stmt) : Stmt :=
  .block (first.toList ++
    [.whileLoop (condition.getD (.constant (.truth true)))
      (.block (body :: (increment.map Stmt.expression).toList))])

mutual

/-- Some `for` statements in a statement are written as `while`. -/
inductive Desugars : Stmt → Stmt → Prop where
  | expression (value : Expr) : Desugars (.expression value) (.expression value)
  | print (line : Nat) (values : List Expr) : Desugars (.print line values) (.print line values)
  | declare (target : Identifier) (initializer : Option Expr) :
      Desugars (.declare target initializer) (.declare target initializer)
  | block {body bodyToo : List Stmt} (inside : DesugarAll body bodyToo) :
      Desugars (.block body) (.block bodyToo)
  | branch (condition : Expr) {whenTrue trueToo : Stmt} {whenFalse falseToo : Option Stmt}
      (ifTrue : Desugars whenTrue trueToo) (ifFalse : Desugars? whenFalse falseToo) :
      Desugars (.branch condition whenTrue whenFalse) (.branch condition trueToo falseToo)
  | whileLoop (condition : Expr) {body bodyToo : Stmt} (inside : Desugars body bodyToo) :
      Desugars (.whileLoop condition body) (.whileLoop condition bodyToo)
  | kept (first : Option Stmt) (condition increment : Option Expr) {body bodyToo : Stmt}
      (inside : Desugars body bodyToo) :
      Desugars (.forLoop first condition increment body) (.forLoop first condition increment bodyToo)
  | rewritten (first : Option Stmt) (condition increment : Option Expr) {body bodyToo : Stmt}
      (inside : Desugars body bodyToo) :
      Desugars (.forLoop first condition increment body) (asWhile first condition increment bodyToo)
  | function (target : Identifier) (parameters : List Identifier) {body bodyToo : List Stmt}
      (inside : DesugarAll body bodyToo) :
      Desugars (.function target parameters body) (.function target parameters bodyToo)
  | giveBack (line : Nat) (value : Option Expr) : Desugars (.giveBack line value) (.giveBack line value)

/-- Some `for` statements in several statements are written as `while`. -/
inductive DesugarAll : List Stmt → List Stmt → Prop where
  | nil : DesugarAll [] []
  | cons {first firstToo : Stmt} {rest restToo : List Stmt} (head : Desugars first firstToo)
      (tail : DesugarAll rest restToo) : DesugarAll (first :: rest) (firstToo :: restToo)

/-- Some `for` statements in a statement that may be absent are written as `while`. -/
inductive Desugars? : Option Stmt → Option Stmt → Prop where
  | none : Desugars? none none
  | some {s t : Stmt} (present : Desugars s t) : Desugars? (some s) (some t)

end

/-- A statement declares what it declared before. -/
theorem declares_of_desugars {s t : Stmt} (desugars : Desugars s t) : t.declares = s.declares := by
  cases desugars <;> rfl

/-! ## The grammar -/

theorem wellFormed_of_initializer {first : Option Stmt} (begins : InitializerWellFormed first) :
    AllWellFormed first.toList := by
  match first, begins with
  | none, _ => trivial
  | some (.declare _ _), begins | some (.expression _), begins => exact ⟨begins, trivial⟩

theorem allWellFormed_append : ∀ {ss ts : List Stmt}, AllWellFormed ss → AllWellFormed ts →
    AllWellFormed (ss ++ ts)
  | [], _, _, behind => behind
  | _ :: _, _, ⟨first, rest⟩, behind => ⟨first, allWellFormed_append rest behind⟩

theorem wellFormed_asWhile {first : Option Stmt} {condition increment : Option Expr} {body : Stmt}
    (wellFormed : (Stmt.forLoop first condition increment body).WellFormed) :
    (asWhile first condition increment body).WellFormed := by
  rcases wellFormed with ⟨begins, conditionFormed, incrementFormed, bodyFormed, -⟩
  refine allWellFormed_append (wellFormed_of_initializer begins) ⟨⟨?_, ⟨bodyFormed, ?_⟩, rfl⟩, trivial⟩
  · cases condition with
    | none => trivial
    | some condition => exact conditionFormed
  · cases increment with
    | none => trivial
    | some increment => exact ⟨incrementFormed, trivial⟩

/-- No `if` at the end becomes open, since a block closes the one that a `for` may end with. -/
theorem endsOpen_of_desugars : ∀ {s t : Stmt}, Desugars s t → t.endsOpen = true → s.endsOpen = true
  | _, _, .branch _ _ .none, _ => rfl
  | _, _, .branch _ _ (.some ifFalse), ends => by
      have inside := endsOpen_of_desugars ifFalse ends
      exact inside
  | _, _, .whileLoop _ inside, ends | _, _, .kept _ _ _ inside, ends => by
      have inside := endsOpen_of_desugars inside ends
      exact inside

mutual

theorem wellFormed_of_desugars : ∀ {s t : Stmt}, Desugars s t → s.WellFormed → t.WellFormed
  | _, _, .expression _, formed | _, _, .print _ _, formed | _, _, .declare _ _, formed
  | _, _, .giveBack _ _, formed => formed
  | _, _, .block inside, formed => allWellFormed_of_desugar inside formed
  | _, _, .branch _ ifTrue ifFalse, ⟨condition, trueFormed, nothing, closed, falseFormed⟩ => by
      refine ⟨condition, wellFormed_of_desugars ifTrue trueFormed, ?_, fun present => ?_,
        branchWellFormed_of_desugars ifFalse falseFormed⟩
      · rw [declares_of_desugars ifTrue]
        exact nothing
      · refine eq_false_of_ne_true fun ends => Bool.false_ne_true ((closed ?_).symm.trans ?_)
        · cases ifFalse with
          | none => exact present
          | some _ => exact Option.some_ne_none _
        · exact endsOpen_of_desugars ifTrue ends
  | _, _, .whileLoop _ inside, ⟨condition, formed, nothing⟩ =>
      ⟨condition, wellFormed_of_desugars inside formed, (declares_of_desugars inside).trans nothing⟩
  | _, _, .kept _ _ _ inside, ⟨begins, condition, increment, formed, nothing⟩ =>
      ⟨begins, condition, increment, wellFormed_of_desugars inside formed,
        (declares_of_desugars inside).trans nothing⟩
  | _, _, .rewritten _ _ _ inside, ⟨begins, condition, increment, formed, nothing⟩ =>
      wellFormed_asWhile ⟨begins, condition, increment, wellFormed_of_desugars inside formed,
        (declares_of_desugars inside).trans nothing⟩
  | _, _, .function _ _ inside, ⟨few, formed⟩ => ⟨few, allWellFormed_of_desugar inside formed⟩

theorem allWellFormed_of_desugar : ∀ {ss ts : List Stmt}, DesugarAll ss ts → AllWellFormed ss →
    AllWellFormed ts
  | _, _, .nil, _ => trivial
  | _, _, .cons head tail, ⟨first, rest⟩ =>
      ⟨wellFormed_of_desugars head first, allWellFormed_of_desugar tail rest⟩

theorem branchWellFormed_of_desugars : ∀ {s t : Option Stmt}, Desugars? s t → BranchWellFormed s →
    BranchWellFormed t
  | _, _, .none, _ => trivial
  | _, _, .some present, ⟨formed, nothing⟩ =>
      ⟨wellFormed_of_desugars present formed, (declares_of_desugars present).trans nothing⟩

end

/-! ## References and `return` -/

theorem refsOf_append : ∀ (ss ts : List Stmt), refsOf (ss ++ ts) = refsOf ss ++ refsOf ts
  | [], _ => rfl
  | first :: rest, ts => by
      rw [List.cons_append, refsOf, refsOf, refsOf_append rest ts, List.append_assoc]

/-- The references of the increment come behind those of the body. -/
theorem refs_asWhile (first : Option Stmt) (condition increment : Option Expr) (body : Stmt) :
    (asWhile first condition increment body).refs =
      refs? first ++ (Expr.refs? condition ++ (body.refs ++ Expr.refs? increment)) := by
  have begins : refsOf first.toList = refs? first := by
    cases first with
    | none => rfl
    | some first => exact List.append_nil _
  have condition : (condition.getD (.constant (.truth true))).refs = Expr.refs? condition := by
    cases condition <;> rfl
  have increment : refsOf (increment.map Stmt.expression).toList = Expr.refs? increment := by
    cases increment with
    | none => rfl
    | some increment => exact List.append_nil _
  simp only [asWhile, refs, refsOf_append, refsOf, begins, condition, increment, List.append_nil]

theorem returnsAny_append : ∀ (ss ts : List Stmt), returnsAny (ss ++ ts) = (returnsAny ss || returnsAny ts)
  | [], _ => rfl
  | first :: rest, ts => by
      rw [List.cons_append, returnsAny, returnsAny, returnsAny_append rest ts, Bool.or_assoc]

theorem returns_asWhile (first : Option Stmt) (condition increment : Option Expr) (body : Stmt) :
    (asWhile first condition increment body).returns = (returns? first || body.returns) := by
  have begins : returnsAny first.toList = returns? first := by
    cases first with
    | none => rfl
    | some first => exact Bool.or_false _
  have increment : returnsAny (increment.map Stmt.expression).toList = false := by
    cases increment <;> rfl
  simp only [asWhile, returns, returnsAny_append, returnsAny, begins, increment, Bool.or_false]

mutual

theorem refs_perm_of_desugars : ∀ {s t : Stmt}, Desugars s t → t.refs.Perm s.refs
  | _, _, .expression _ | _, _, .print _ _ | _, _, .declare _ _ | _, _, .giveBack _ _ => .rfl
  | _, _, .block inside => by
      have inner := refsOf_perm_of_desugar inside
      exact inner
  | _, _, .branch condition ifTrue ifFalse =>
      ((refs_perm_of_desugars ifTrue).append_left condition.refs).append (refs?_perm_of_desugars ifFalse)
  | _, _, .whileLoop condition inside => (refs_perm_of_desugars inside).append_left condition.refs
  | _, _, .kept _ _ _ inside => (refs_perm_of_desugars inside).append_left _
  | _, _, .rewritten first condition increment inside => by
      rw [refs_asWhile]
      simp only [refs, List.append_assoc]
      refine ((List.perm_append_comm.trans ?_).append_left (Expr.refs? condition)).append_left (refs? first)
      exact (refs_perm_of_desugars inside).append_left (Expr.refs? increment)
  | _, _, .function _ _ inside => by
      have inner := refsOf_perm_of_desugar inside
      exact inner

theorem refsOf_perm_of_desugar : ∀ {ss ts : List Stmt}, DesugarAll ss ts → (refsOf ts).Perm (refsOf ss)
  | _, _, .nil => .rfl
  | _, _, .cons head tail => (refs_perm_of_desugars head).append (refsOf_perm_of_desugar tail)

theorem refs?_perm_of_desugars : ∀ {s t : Option Stmt}, Desugars? s t → (refs? t).Perm (refs? s)
  | _, _, .none => .rfl
  | _, _, .some present => by
      have inner := refs_perm_of_desugars present
      exact inner

end

mutual

theorem returns_of_desugars : ∀ {s t : Stmt}, Desugars s t → t.returns = s.returns
  | _, _, .expression _ | _, _, .print _ _ | _, _, .declare _ _ | _, _, .giveBack _ _
  | _, _, .function _ _ _ => rfl
  | _, _, .block inside => by
      have inner := returnsAny_of_desugar inside
      exact inner
  | _, _, .branch _ ifTrue ifFalse => by
      rw [returns, returns, returns_of_desugars ifTrue, returns?_of_desugars ifFalse]
  | _, _, .whileLoop _ inside => by
      have inner := returns_of_desugars inside
      exact inner
  | _, _, .kept _ _ _ inside => by rw [returns, returns, returns_of_desugars inside]
  | _, _, .rewritten _ _ _ inside => by rw [returns_asWhile, returns, returns_of_desugars inside]

theorem returnsAny_of_desugar : ∀ {ss ts : List Stmt}, DesugarAll ss ts → returnsAny ts = returnsAny ss
  | _, _, .nil => rfl
  | _, _, .cons head tail => by
      rw [returnsAny, returnsAny, returns_of_desugars head, returnsAny_of_desugar tail]

theorem returns?_of_desugars : ∀ {s t : Option Stmt}, Desugars? s t → returns? t = returns? s
  | _, _, .none => rfl
  | _, _, .some present => by
      have inner := returns_of_desugars present
      exact inner

end

end Stmt

end ScopedScript

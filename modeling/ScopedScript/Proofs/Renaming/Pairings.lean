import ScopedScript.Proofs.Scoping.Bound
namespace ScopedScript

/-!
# Programs that differ in their local names

Two programs are alpha-equivalent when one comes of the other by giving local variables and parameters other
names.  Side by side with the two programs goes a `Pairing`: what each open scope has declared in the one and in
the other.  Two names mean the same when the nearest scopes that have declared them are the same scope, which
has declared them together, or when no scope has declared either and they are the same global name.

The names of functions and everything global stay as they are.  Neither program may declare a name twice in a
scope, so that a local name never hides one that it ought to be told from.
-/

open Resolution (ScopeChain distance? extended extendedAll Fresh AllFresh)

/-- The names that two programs have declared in each open scope, innermost scope first. -/
abbrev Pairing := List (List (String × String))

namespace Pairing

/-- What the first program has declared. -/
def lefts (pairing : Pairing) : ScopeChain := pairing.map (·.map Prod.fst)

/-- What the second program has declared. -/
def rights (pairing : Pairing) : ScopeChain := pairing.map (·.map Prod.snd)

/-- Two names are those of one variable, or one global name. -/
def Means : Pairing → String → String → Prop
  | [], name, other => name = other
  | innermost :: outer, name, other =>
    (name, other) ∈ innermost ∨
      name ∉ innermost.map Prod.fst ∧ other ∉ innermost.map Prod.snd ∧ Means outer name other

/-- Two names can be declared together.  At the top level they have to be the same. -/
def Admits : Pairing → String → String → Prop
  | [], name, other => name = other
  | innermost :: _, name, other => name ∉ innermost.map Prod.fst ∧ other ∉ innermost.map Prod.snd

/-- Two names are declared together.  The top level is no scope. -/
def declare (name other : String) : Pairing → Pairing
  | [] => []
  | innermost :: outer => ((name, other) :: innermost) :: outer

variable {pairing : Pairing} {name other another anotherToo : String}

theorem means_enter : Means ([] :: pairing) name other ↔ Means pairing name other := by
  simp [Means]

theorem lefts_declare (pairing : Pairing) (name other : String) :
    (pairing.declare name other).lefts = extended name pairing.lefts := by
  cases pairing <;> rfl

theorem rights_declare (pairing : Pairing) (name other : String) :
    (pairing.declare name other).rights = extended other pairing.rights := by
  cases pairing <;> rfl

/-- What is declared together means the same. -/
theorem Admits.means (admits : pairing.Admits name other) : (pairing.declare name other).Means name other := by
  cases pairing with
  | nil => exact admits
  | cons innermost outer => exact .inl List.mem_cons_self

theorem Admits.fresh (admits : pairing.Admits name other) : Fresh other pairing.rights := by
  cases pairing with
  | nil => trivial
  | cons innermost outer => exact admits.2

/-- Behind a declaration, names mean the same when they are the declared ones, or did so before it. -/
theorem Admits.of_means (admits : pairing.Admits name other)
    (means : (pairing.declare name other).Means another anotherToo) :
    (another = name ∧ anotherToo = other) ∨
      (pairing ≠ [] → another ≠ name ∧ anotherToo ≠ other) ∧ pairing.Means another anotherToo := by
  cases pairing with
  | nil => exact .inr ⟨fun inside => absurd rfl inside, means⟩
  | cons innermost outer =>
      rcases means with member | ⟨newLeft, newRight, means⟩
      · rcases List.mem_cons.mp member with same | member
        · cases same
          exact .inl ⟨rfl, rfl⟩
        · have left : another ∈ innermost.map Prod.fst := List.mem_map_of_mem member
          have right : anotherToo ∈ innermost.map Prod.snd := List.mem_map_of_mem member
          refine .inr ⟨fun _ => ⟨?_, ?_⟩, .inl member⟩
          · rintro rfl
            exact admits.1 left
          · rintro rfl
            exact admits.2 right
      · rw [List.map_cons, List.mem_cons, not_or] at newLeft newRight
        exact .inr ⟨fun _ => ⟨newLeft.1, newRight.1⟩, .inr ⟨newLeft.2, newRight.2, means⟩⟩

/-- Names that mean the same are equally far from their declarations. -/
theorem Means.distance?_eq (means : pairing.Means name other) :
    distance? pairing.rights other = distance? pairing.lefts name := by
  induction pairing with
  | nil => rfl
  | cons innermost outer inductionHypothesis =>
      rw [lefts, rights, List.map_cons, List.map_cons, Resolution.distance?_cons, Resolution.distance?_cons]
      rcases means with member | ⟨newLeft, newRight, means⟩
      · rw [if_pos (List.mem_map_of_mem member), if_pos (List.mem_map_of_mem member)]
      · rw [if_neg newLeft, if_neg newRight]
        exact congrArg _ (inductionHypothesis means)

/-- Parameters are declared together, one after the other. -/
inductive Parameters : Pairing → List Identifier → List Identifier → Pairing → Prop where
  | nil (pairing : Pairing) : Parameters pairing [] [] pairing
  | cons {pairing after : Pairing} {name other : String} (line : Nat) {rest restToo : List Identifier}
      (admits : pairing.Admits name other) (tail : Parameters (pairing.declare name other) rest restToo after) :
      Parameters pairing (⟨name, line⟩ :: rest) (⟨other, line⟩ :: restToo) after

theorem Parameters.length_eq {after : Pairing} {list listToo : List Identifier}
    (together : Parameters pairing list listToo after) : listToo.length = list.length := by
  induction together with
  | nil _ => rfl
  | cons line admits tail inductionHypothesis => exact congrArg (· + 1) inductionHypothesis

end Pairing

namespace Expr

mutual

/-- Two expressions that differ in names which mean the same. -/
inductive Alpha (pairing : Pairing) : Expr → Expr → Prop where
  | constant (value : Constant) : Alpha pairing (.constant value) (.constant value)
  | group {inner innerToo : Expr} (inside : Alpha pairing inner innerToo) :
      Alpha pairing (.group inner) (.group innerToo)
  | unary (op : UnaryOp) (line : Nat) {operand operandToo : Expr} (inside : Alpha pairing operand operandToo) :
      Alpha pairing (.unary op line operand) (.unary op line operandToo)
  | binary (op : BinaryOp) (line : Nat) {left leftToo right rightToo : Expr} (onLeft : Alpha pairing left leftToo)
      (onRight : Alpha pairing right rightToo) :
      Alpha pairing (.binary op line left right) (.binary op line leftToo rightToo)
  | logical (op : LogicalOp) {left leftToo right rightToo : Expr} (onLeft : Alpha pairing left leftToo)
      (onRight : Alpha pairing right rightToo) :
      Alpha pairing (.logical op left right) (.logical op leftToo rightToo)
  | variable (ref : RefId) (line : Nat) {name other : String} (means : pairing.Means name other) :
      Alpha pairing (.variable ref ⟨name, line⟩) (.variable ref ⟨other, line⟩)
  | assign (ref : RefId) (line : Nat) {name other : String} {value valueToo : Expr}
      (means : pairing.Means name other) (inside : Alpha pairing value valueToo) :
      Alpha pairing (.assign ref ⟨name, line⟩ value) (.assign ref ⟨other, line⟩ valueToo)
  | call (line : Nat) {callee calleeToo : Expr} {arguments argumentsToo : List Expr}
      (function : Alpha pairing callee calleeToo) (inside : AlphaAll pairing arguments argumentsToo) :
      Alpha pairing (.call callee line arguments) (.call calleeToo line argumentsToo)

/-- As many expressions that differ in names which mean the same. -/
inductive AlphaAll (pairing : Pairing) : List Expr → List Expr → Prop where
  | nil : AlphaAll pairing [] []
  | cons {first firstToo : Expr} {rest restToo : List Expr} (head : Alpha pairing first firstToo)
      (tail : AlphaAll pairing rest restToo) : AlphaAll pairing (first :: rest) (firstToo :: restToo)

end

/-- Two such expressions, or none. -/
inductive Alpha? (pairing : Pairing) : Option Expr → Option Expr → Prop where
  | none : Alpha? pairing none none
  | some {e eToo : Expr} (present : Alpha pairing e eToo) : Alpha? pairing (some e) (some eToo)

variable {pairing : Pairing}

theorem Alpha.level_eq {e eToo : Expr} (alpha : e.Alpha pairing eToo) : eToo.level = e.level := by
  cases alpha <;> rfl

theorem AlphaAll.length_eq : ∀ {es esToo : List Expr}, AlphaAll pairing es esToo → esToo.length = es.length
  | _, _, .nil => rfl
  | _, _, .cons _ tail => congrArg (· + 1) tail.length_eq

mutual

theorem Alpha.wellFormed : ∀ {e eToo : Expr}, e.Alpha pairing eToo → e.WellFormed → eToo.WellFormed
  | _, _, .constant _, formed => formed
  | _, _, .group inside, formed => by
      have innerFormed := inside.wellFormed formed
      exact innerFormed
  | _, _, .unary _ _ inside, ⟨formed, high⟩ => ⟨inside.wellFormed formed, by rwa [inside.level_eq]⟩
  | _, _, .binary _ _ onLeft onRight, ⟨leftFormed, rightFormed, leftHigh, rightHigh⟩
  | _, _, .logical _ onLeft onRight, ⟨leftFormed, rightFormed, leftHigh, rightHigh⟩ =>
      ⟨onLeft.wellFormed leftFormed, onRight.wellFormed rightFormed, by rwa [onLeft.level_eq],
        by rwa [onRight.level_eq]⟩
  | _, _, .variable _ _ _, _ => trivial
  | _, _, .assign _ _ _ inside, formed => by
      have valueFormed := inside.wellFormed formed
      exact valueFormed
  | _, _, .call _ function inside, ⟨formed, high, few, allFormed⟩ =>
      ⟨function.wellFormed formed, by rwa [function.level_eq], by rwa [inside.length_eq],
        inside.wellFormed allFormed⟩

theorem AlphaAll.wellFormed : ∀ {es esToo : List Expr}, AlphaAll pairing es esToo →
    AllWellFormed es → AllWellFormed esToo
  | _, _, .nil, _ => trivial
  | _, _, .cons head tail, ⟨formed, allFormed⟩ => ⟨head.wellFormed formed, tail.wellFormed allFormed⟩

end

theorem Alpha?.wellFormed {e eToo : Option Expr} (alpha : Alpha? pairing e eToo) (formed : WellFormed? e) :
    WellFormed? eToo := by
  cases alpha with
  | none => trivial
  | some present => exact present.wellFormed formed

end Expr

namespace Stmt

mutual

/-- Two statements that differ in local names, and what is declared behind them. -/
inductive Alpha : Pairing → Stmt → Stmt → Pairing → Prop where
  | expression {pairing : Pairing} {value valueToo : Expr} (inside : value.Alpha pairing valueToo) :
      Alpha pairing (.expression value) (.expression valueToo) pairing
  | print {pairing : Pairing} (line : Nat) {values valuesToo : List Expr}
      (inside : Expr.AlphaAll pairing values valuesToo) :
      Alpha pairing (.print line values) (.print line valuesToo) pairing
  | declare {pairing : Pairing} {name other : String} (line : Nat) {initializer initializerToo : Option Expr}
      (admits : pairing.Admits name other)
      (inside : Expr.Alpha? (pairing.declare name other) initializer initializerToo) :
      Alpha pairing (.declare ⟨name, line⟩ initializer) (.declare ⟨other, line⟩ initializerToo)
        (pairing.declare name other)
  | block {pairing after : Pairing} {body bodyToo : List Stmt}
      (inside : AlphaAll ([] :: pairing) body bodyToo after) :
      Alpha pairing (.block body) (.block bodyToo) pairing
  | branch {pairing : Pairing} {condition conditionToo : Expr} {whenTrue trueToo : Stmt}
      {whenFalse falseToo : Option Stmt} (test : condition.Alpha pairing conditionToo)
      (ifTrue : Alpha pairing whenTrue trueToo pairing) (ifFalse : Alpha? pairing whenFalse falseToo pairing) :
      Alpha pairing (.branch condition whenTrue whenFalse) (.branch conditionToo trueToo falseToo) pairing
  | whileLoop {pairing : Pairing} {condition conditionToo : Expr} {body bodyToo : Stmt}
      (test : condition.Alpha pairing conditionToo) (inside : Alpha pairing body bodyToo pairing) :
      Alpha pairing (.whileLoop condition body) (.whileLoop conditionToo bodyToo) pairing
  | forLoop {pairing inner : Pairing} {first firstToo : Option Stmt}
      {condition conditionToo increment incrementToo : Option Expr} {body bodyToo : Stmt}
      (begins : Alpha? ([] :: pairing) first firstToo inner) (test : Expr.Alpha? inner condition conditionToo)
      (step : Expr.Alpha? inner increment incrementToo) (inside : Alpha inner body bodyToo inner) :
      Alpha pairing (.forLoop first condition increment body) (.forLoop firstToo conditionToo incrementToo bodyToo)
        pairing
  | function {pairing inner after : Pairing} (target : Identifier) {parameters parametersToo : List Identifier}
      {body bodyToo : List Stmt} (admits : pairing.Admits target.name target.name)
      (together : Pairing.Parameters ([] :: pairing.declare target.name target.name) parameters parametersToo inner)
      (inside : AlphaAll inner body bodyToo after) :
      Alpha pairing (.function target parameters body) (.function target parametersToo bodyToo)
        (pairing.declare target.name target.name)
  | giveBack {pairing : Pairing} (line : Nat) {value valueToo : Option Expr}
      (inside : Expr.Alpha? pairing value valueToo) :
      Alpha pairing (.giveBack line value) (.giveBack line valueToo) pairing

/-- As many statements that differ in local names. -/
inductive AlphaAll : Pairing → List Stmt → List Stmt → Pairing → Prop where
  | nil (pairing : Pairing) : AlphaAll pairing [] [] pairing
  | cons {pairing middle after : Pairing} {first firstToo : Stmt} {rest restToo : List Stmt}
      (head : Alpha pairing first firstToo middle) (tail : AlphaAll middle rest restToo after) :
      AlphaAll pairing (first :: rest) (firstToo :: restToo) after

/-- Two such statements, or none. -/
inductive Alpha? : Pairing → Option Stmt → Option Stmt → Pairing → Prop where
  | none (pairing : Pairing) : Alpha? pairing none none pairing
  | some {pairing after : Pairing} {s sToo : Stmt} (present : Alpha pairing s sToo after) :
      Alpha? pairing (some s) (some sToo) after

end

variable {pairing after : Pairing} {s sToo : Stmt}

theorem Alpha.declares_eq (alpha : Alpha pairing s sToo after) : sToo.declares = s.declares := by
  cases alpha <;> rfl

theorem Alpha.endsOpen_eq : ∀ {pairing after : Pairing} {s sToo : Stmt}, Alpha pairing s sToo after →
    sToo.endsOpen = s.endsOpen
  | _, _, _, _, .expression _ | _, _, _, _, .print _ _ | _, _, _, _, .declare _ _ _ | _, _, _, _, .block _
  | _, _, _, _, .function _ _ _ _ | _, _, _, _, .giveBack _ _ => rfl
  | _, _, _, _, .branch _ _ (.none _) => rfl
  | _, _, _, _, .branch _ _ (.some present) => by rw [endsOpen, endsOpen, Alpha.endsOpen_eq present]
  | _, _, _, _, .whileLoop _ inside => by rw [endsOpen, endsOpen, Alpha.endsOpen_eq inside]
  | _, _, _, _, .forLoop _ _ _ inside => by rw [endsOpen, endsOpen, Alpha.endsOpen_eq inside]

theorem Alpha?.initializerWellFormed {first firstToo : Option Stmt} (alpha : Alpha? pairing first firstToo after)
    (formed : InitializerWellFormed first) : InitializerWellFormed firstToo := by
  cases alpha with
  | none _ => trivial
  | some present =>
      cases present with
      | declare line admits inside => exact Expr.Alpha?.wellFormed inside formed
      | expression inside => exact Expr.Alpha.wellFormed inside formed
      | _ => cases formed

mutual

theorem Alpha.wellFormed : ∀ {pairing after : Pairing} {s sToo : Stmt}, Alpha pairing s sToo after →
    s.WellFormed → sToo.WellFormed
  | _, _, _, _, .expression inside, formed => inside.wellFormed formed
  | _, _, _, _, .print _ inside, ⟨notEmpty, formed⟩ => by
      refine ⟨fun nothing => notEmpty ?_, inside.wellFormed formed⟩
      subst nothing
      cases inside
      rfl
  | _, _, _, _, .declare _ _ inside, formed => inside.wellFormed formed
  | _, _, _, _, .block inside, formed => AlphaAll.wellFormed inside formed
  | _, _, _, _, .branch test ifTrue ifFalse, ⟨formed, trueFormed, nothing, closed, falseFormed⟩ => by
      refine ⟨test.wellFormed formed, ifTrue.wellFormed trueFormed, by rwa [ifTrue.declares_eq], ?_,
        ifFalse.wellFormed falseFormed⟩
      intro present
      rw [ifTrue.endsOpen_eq]
      refine closed fun absent => present ?_
      subst absent
      cases ifFalse
      rfl
  | _, _, _, _, .whileLoop test inside, ⟨formed, bodyFormed, nothing⟩ =>
      ⟨test.wellFormed formed, inside.wellFormed bodyFormed, by rwa [inside.declares_eq]⟩
  | _, _, _, _, .forLoop begins test step inside, ⟨firstFormed, formed, stepFormed, bodyFormed, nothing⟩ =>
      ⟨begins.initializerWellFormed firstFormed, test.wellFormed formed, step.wellFormed stepFormed,
        inside.wellFormed bodyFormed, by rwa [inside.declares_eq]⟩
  | _, _, _, _, .function _ _ together inside, ⟨few, formed⟩ =>
      ⟨by rwa [together.length_eq], inside.wellFormed formed⟩
  | _, _, _, _, .giveBack _ inside, formed => inside.wellFormed formed

theorem AlphaAll.wellFormed : ∀ {pairing after : Pairing} {ss ssToo : List Stmt}, AlphaAll pairing ss ssToo after →
    AllWellFormed ss → AllWellFormed ssToo
  | _, _, _, _, .nil _, _ => trivial
  | _, _, _, _, .cons head tail, ⟨formed, allFormed⟩ => ⟨head.wellFormed formed, tail.wellFormed allFormed⟩

theorem Alpha?.wellFormed : ∀ {pairing after : Pairing} {s sToo : Option Stmt}, Alpha? pairing s sToo after →
    BranchWellFormed s → BranchWellFormed sToo
  | _, _, _, _, .none _, _ => trivial
  | _, _, _, _, .some present, ⟨formed, nothing⟩ => ⟨present.wellFormed formed, by rwa [present.declares_eq]⟩

end

end Stmt

end ScopedScript

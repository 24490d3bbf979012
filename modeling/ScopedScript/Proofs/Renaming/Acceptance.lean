import ScopedScript.Proofs.Desugaring.Acceptance
import ScopedScript.Proofs.Renaming.Pairings
namespace ScopedScript

/-!
# What the scope analysis finds out about an alpha-equivalent program

The scope analysis looks at local names only to tell them from each other.  When it accepts a program, it accepts
every alpha-equivalent one, and finds out the same about each of its references.
-/

open Resolution (Walk ofExpr ofExprs ofExpr? ofStmt ofStmts ofStmt? declare_of_fresh)

/-- What has been found out about a reference, apart from its name. -/
def Reference.finding (reference : Reference) : RefId × Access × Option Nat :=
  (reference.ref, reference.access, reference.distance?)

/-- The same has been found out about as many references. -/
def SameFindings (found foundToo : List Reference) : Prop :=
  foundToo.map Reference.finding = found.map Reference.finding

namespace SameFindings

variable {found foundToo : List Reference}

theorem reverse (same : SameFindings found foundToo) : SameFindings found.reverse foundToo.reverse := by
  rw [SameFindings, List.map_reverse, List.map_reverse, same]

/-- The references are the same. -/
theorem map_ref_eq (same : SameFindings found foundToo) : foundToo.map Reference.ref = found.map Reference.ref := by
  have firsts := congrArg (List.map Prod.fst) same
  rw [List.map_map, List.map_map] at firsts
  exact firsts

/-- Names that mean the same are noted under the same distance. -/
theorem note {pairing : Pairing} {name other : String} (same : SameFindings found foundToo)
    (means : pairing.Means name other) (ref : RefId) (access : Access) (line : Nat) :
    SameFindings (Resolution.note pairing.lefts ref access ⟨name, line⟩ found)
      (Resolution.note pairing.rights ref access ⟨other, line⟩ foundToo) := by
  rw [SameFindings, Resolution.note, Resolution.note, List.map_cons, List.map_cons, same, means.distance?_eq]
  rfl

end SameFindings

namespace Resolution

variable {pairing : Pairing}

/-- The variable that is not ready in the one program is the one that is not ready in the other. -/
def SameUnready (pairing : Pairing) (unready unreadyToo : Option String) : Prop :=
  ∀ name other, pairing.Means name other → unready ≠ some name → unreadyToo ≠ some other

theorem sameUnready_none : SameUnready pairing none none := fun _ _ _ _ => nofun

theorem sameUnready_declare {name other : String} (line : Nat) (admits : pairing.Admits name other) :
    SameUnready (pairing.declare name other) (unready ⟨name, line⟩ (extended name pairing.lefts))
      (unready ⟨other, line⟩ (extended other pairing.rights)) := by
  intro another anotherToo means ready
  cases pairing with
  | nil => exact nofun
  | cons innermost outer =>
      rcases admits.of_means means with ⟨rfl, rfl⟩ | ⟨apart, _⟩
      · exact absurd rfl ready
      · rintro ⟨⟩
        exact (apart (List.cons_ne_nil _ _)).2 rfl

section

variable {unready unreadyToo : Option String}

mutual

theorem ofExpr_alpha (ready : SameUnready pairing unready unreadyToo) : ∀ {e eToo : Expr}, e.Alpha pairing eToo →
    ∀ {found foundToo after : List Reference}, SameFindings found foundToo →
    ofExpr pairing.lefts unready e found = .ok after →
      ∃ afterToo, ofExpr pairing.rights unreadyToo eToo foundToo = .ok afterToo ∧ SameFindings after afterToo
  | _, _, .constant _, _, foundToo, _, same, walked => by
      cases walked
      exact ⟨foundToo, rfl, same⟩
  | _, _, .group inside, _, _, _, same, walked | _, _, .unary _ _ inside, _, _, _, same, walked =>
      ofExpr_alpha ready inside same walked
  | _, _, .binary _ _ onLeft onRight, _, _, _, same, walked
  | _, _, .logical _ onLeft onRight, _, _, _, same, walked => by
      rcases bind_eq_ok.mp walked with ⟨middle, leftWalked, rightWalked⟩
      rcases ofExpr_alpha ready onLeft same leftWalked with ⟨middleToo, leftToo, same⟩
      rcases ofExpr_alpha ready onRight same rightWalked with ⟨afterToo, rightToo, same⟩
      exact ⟨afterToo, bind_eq_ok.mpr ⟨middleToo, leftToo, rightToo⟩, same⟩
  | _, _, .variable ref line means, _, foundToo, _, same, walked => by
      rw [ofExpr] at walked
      split at walked
      · cases walked
      · rename_i isReady
        cases walked
        exact ⟨_, if_neg (ready _ _ means isReady), same.note means ref .read line⟩
  | _, _, .assign ref line means inside, _, _, _, same, walked => by
      rcases bind_eq_ok.mp walked with ⟨middle, valueWalked, made⟩
      cases made
      rcases ofExpr_alpha ready inside same valueWalked with ⟨middleToo, valueToo, same⟩
      exact ⟨_, bind_eq_ok.mpr ⟨middleToo, valueToo, rfl⟩, same.note means ref .write line⟩
  | _, _, .call _ function inside, _, _, _, same, walked => by
      rcases bind_eq_ok.mp walked with ⟨middle, calleeWalked, argumentsWalked⟩
      rcases ofExpr_alpha ready function same calleeWalked with ⟨middleToo, calleeToo, same⟩
      rcases ofExprs_alpha ready inside same argumentsWalked with ⟨afterToo, argumentsToo, same⟩
      exact ⟨afterToo, bind_eq_ok.mpr ⟨middleToo, calleeToo, argumentsToo⟩, same⟩

theorem ofExprs_alpha (ready : SameUnready pairing unready unreadyToo) : ∀ {es esToo : List Expr},
    Expr.AlphaAll pairing es esToo → ∀ {found foundToo after : List Reference}, SameFindings found foundToo →
    ofExprs pairing.lefts unready es found = .ok after →
      ∃ afterToo, ofExprs pairing.rights unreadyToo esToo foundToo = .ok afterToo ∧ SameFindings after afterToo
  | _, _, .nil, _, foundToo, _, same, walked => by
      cases walked
      exact ⟨foundToo, rfl, same⟩
  | _, _, .cons head tail, _, _, _, same, walked => by
      rcases bind_eq_ok.mp walked with ⟨middle, firstWalked, restWalked⟩
      rcases ofExpr_alpha ready head same firstWalked with ⟨middleToo, firstToo, same⟩
      rcases ofExprs_alpha ready tail same restWalked with ⟨afterToo, restToo, same⟩
      exact ⟨afterToo, bind_eq_ok.mpr ⟨middleToo, firstToo, restToo⟩, same⟩

end

end

theorem ofExpr?_alpha {e eToo : Option Expr} (alpha : Expr.Alpha? pairing e eToo)
    {found foundToo after : List Reference} (same : SameFindings found foundToo)
    (walked : ofExpr? pairing.lefts e found = .ok after) :
    ∃ afterToo, ofExpr? pairing.rights eToo foundToo = .ok afterToo ∧ SameFindings after afterToo := by
  cases alpha with
  | none =>
      cases walked
      exact ⟨foundToo, rfl, same⟩
  | some present => exact ofExpr_alpha sameUnready_none present same walked

/-- The walks over two statements end with the names that have been declared behind them, and with the same
findings. -/
def Accompanies (after : Pairing) (walk : Walk) (result : Except ScopeError Walk) : Prop :=
  ∃ found foundToo, walk = ⟨after.lefts, found⟩ ∧ result = .ok ⟨after.rights, foundToo⟩ ∧ SameFindings found foundToo

theorem parameters_alpha {after : Pairing} {list listToo : List Identifier}
    (together : pairing.Parameters list listToo after) {chain : ScopeChain}
    (declared : declareAll list pairing.lefts = .ok chain) :
    chain = after.lefts ∧ declareAll listToo pairing.rights = .ok after.rights := by
  induction together with
  | nil pairing =>
      cases declared
      exact ⟨rfl, rfl⟩
  | @cons pairing after name other line rest restToo admits tail inductionHypothesis =>
      rcases bind_eq_ok.mp declared with ⟨middle, first, others⟩
      rw [(declare_ok first).2, ← pairing.lefts_declare name other] at others
      rcases inductionHypothesis others with ⟨same, declaredToo⟩
      rw [pairing.rights_declare] at declaredToo
      exact ⟨same, bind_eq_ok.mpr ⟨_, declare_of_fresh admits.fresh, declaredToo⟩⟩

mutual

theorem ofStmt_alpha (inFunction : Bool) : ∀ {pairing after : Pairing} {s sToo : Stmt}, s.Alpha pairing sToo after →
    ∀ {found foundToo : List Reference} {walk : Walk}, SameFindings found foundToo →
    ofStmt inFunction s ⟨pairing.lefts, found⟩ = .ok walk →
      Accompanies after walk (ofStmt inFunction sToo ⟨pairing.rights, foundToo⟩)
  | _, _, _, _, .expression inside, _, _, _, same, walked => by
      rcases bind_eq_ok.mp walked with ⟨middle, valueWalked, made⟩
      cases made
      rcases ofExpr_alpha sameUnready_none inside same valueWalked with ⟨middleToo, valueToo, same⟩
      exact ⟨middle, middleToo, rfl, bind_eq_ok.mpr ⟨middleToo, valueToo, rfl⟩, same⟩
  | _, _, _, _, .print _ inside, _, _, _, same, walked => by
      rcases bind_eq_ok.mp walked with ⟨middle, valuesWalked, made⟩
      cases made
      rcases ofExprs_alpha sameUnready_none inside same valuesWalked with ⟨middleToo, valuesToo, same⟩
      exact ⟨middle, middleToo, rfl, bind_eq_ok.mpr ⟨middleToo, valuesToo, rfl⟩, same⟩
  | pairing, _, _, _, @Stmt.Alpha.declare _ name other line _ _ admits inside, found, foundToo, _, same, walked => by
      rcases bind_eq_ok.mp walked with ⟨chain, declared, walked⟩
      rcases declare_ok declared with ⟨_, rfl⟩
      have declaredToo : declare ⟨other, line⟩ pairing.rights = .ok _ := declare_of_fresh admits.fresh
      have ready := sameUnready_declare line admits
      rw [← pairing.lefts_declare name other] at walked ready
      rw [← pairing.rights_declare name other] at declaredToo ready
      cases inside with
      | none =>
          cases walked
          exact ⟨found, foundToo, rfl, bind_eq_ok.mpr ⟨_, declaredToo, rfl⟩, same⟩
      | some present =>
          rcases bind_eq_ok.mp walked with ⟨after, valueWalked, made⟩
          cases made
          rcases ofExpr_alpha ready present same valueWalked with ⟨afterToo, valueToo, same⟩
          refine ⟨after, afterToo, rfl, bind_eq_ok.mpr ⟨_, declaredToo, ?_⟩, same⟩
          exact bind_eq_ok.mpr ⟨afterToo, valueToo, rfl⟩
  | _, _, _, _, .block inside, _, _, _, same, walked => by
      rcases bind_eq_ok.mp walked with ⟨inner, bodyWalked, made⟩
      cases made
      rcases ofStmts_alpha inFunction inside same bodyWalked with ⟨more, moreToo, rfl, bodyToo, same⟩
      exact ⟨more, moreToo, rfl, bind_eq_ok.mpr ⟨_, bodyToo, rfl⟩, same⟩
  | _, _, _, _, .branch test ifTrue ifFalse, _, _, _, same, walked => by
      rcases bind_eq_ok.mp walked with ⟨middle, conditionWalked, walked⟩
      rcases bind_eq_ok.mp walked with ⟨inner, trueWalked, falseWalked⟩
      rcases ofExpr_alpha sameUnready_none test same conditionWalked with ⟨middleToo, conditionToo, same⟩
      rcases ofStmt_alpha inFunction ifTrue same trueWalked with ⟨more, moreToo, rfl, trueToo, same⟩
      rcases ofStmt?_alpha inFunction ifFalse same falseWalked with ⟨last, lastToo, rfl, falseToo, same⟩
      refine ⟨last, lastToo, rfl, bind_eq_ok.mpr ⟨middleToo, conditionToo, ?_⟩, same⟩
      exact bind_eq_ok.mpr ⟨_, trueToo, falseToo⟩
  | _, _, _, _, .whileLoop test inside, _, _, _, same, walked => by
      rcases bind_eq_ok.mp walked with ⟨middle, conditionWalked, bodyWalked⟩
      rcases ofExpr_alpha sameUnready_none test same conditionWalked with ⟨middleToo, conditionToo, same⟩
      rcases ofStmt_alpha inFunction inside same bodyWalked with ⟨more, moreToo, rfl, bodyToo, same⟩
      exact ⟨more, moreToo, rfl, bind_eq_ok.mpr ⟨middleToo, conditionToo, bodyToo⟩, same⟩
  | _, _, _, _, .forLoop begins test step inside, _, _, _, same, walked => by
      rcases bind_eq_ok.mp walked with ⟨inner, firstWalked, walked⟩
      rcases ofStmt?_alpha inFunction begins same firstWalked with ⟨more, moreToo, rfl, firstToo, same⟩
      rcases bind_eq_ok.mp walked with ⟨middle, conditionWalked, walked⟩
      rcases ofExpr?_alpha test same conditionWalked with ⟨middleToo, conditionToo, same⟩
      rcases bind_eq_ok.mp walked with ⟨later, incrementWalked, walked⟩
      rcases ofExpr?_alpha step same incrementWalked with ⟨laterToo, incrementToo, same⟩
      rcases bind_eq_ok.mp walked with ⟨_, bodyWalked, made⟩
      cases made
      rcases ofStmt_alpha inFunction inside same bodyWalked with ⟨last, lastToo, rfl, bodyToo, same⟩
      refine ⟨last, lastToo, rfl, bind_eq_ok.mpr ⟨_, firstToo, bind_eq_ok.mpr ⟨middleToo, conditionToo, ?_⟩⟩, same⟩
      exact bind_eq_ok.mpr ⟨laterToo, incrementToo, bind_eq_ok.mpr ⟨_, bodyToo, rfl⟩⟩
  | pairing, _, _, _, .function target admits together inside, _, _, _, same, walked => by
      rcases bind_eq_ok.mp walked with ⟨chain, declared, walked⟩
      rcases declare_ok declared with ⟨_, rfl⟩
      have declaredToo : declare target pairing.rights = .ok _ := declare_of_fresh admits.fresh
      rw [← pairing.lefts_declare target.name target.name] at walked
      rw [← pairing.rights_declare target.name target.name] at declaredToo
      rcases bind_eq_ok.mp walked with ⟨inner, allDeclared, walked⟩
      rcases parameters_alpha together allDeclared with ⟨rfl, allDeclaredToo⟩
      rcases bind_eq_ok.mp walked with ⟨_, bodyWalked, made⟩
      cases made
      rcases ofStmts_alpha true inside same bodyWalked with ⟨more, moreToo, rfl, bodyToo, same⟩
      refine ⟨more, moreToo, rfl, bind_eq_ok.mpr ⟨_, declaredToo, ?_⟩, same⟩
      exact bind_eq_ok.mpr ⟨_, allDeclaredToo, bind_eq_ok.mpr ⟨_, bodyToo, rfl⟩⟩
  | _, _, _, _, .giveBack _ inside, _, _, _, same, walked => by
      rw [ofStmt] at walked
      split at walked
      · rename_i within
        rcases bind_eq_ok.mp walked with ⟨middle, valueWalked, made⟩
        cases made
        rcases ofExpr?_alpha inside same valueWalked with ⟨middleToo, valueToo, same⟩
        refine ⟨middle, middleToo, rfl, (if_pos within).trans ?_, same⟩
        exact bind_eq_ok.mpr ⟨middleToo, valueToo, rfl⟩
      · cases walked

theorem ofStmts_alpha (inFunction : Bool) : ∀ {pairing after : Pairing} {ss ssToo : List Stmt},
    Stmt.AlphaAll pairing ss ssToo after → ∀ {found foundToo : List Reference} {walk : Walk},
    SameFindings found foundToo → ofStmts inFunction ss ⟨pairing.lefts, found⟩ = .ok walk →
      Accompanies after walk (ofStmts inFunction ssToo ⟨pairing.rights, foundToo⟩)
  | _, _, _, _, .nil _, found, foundToo, _, same, walked => by
      cases walked
      exact ⟨found, foundToo, rfl, rfl, same⟩
  | _, _, _, _, .cons head tail, _, _, _, same, walked => by
      rcases bind_eq_ok.mp walked with ⟨middle, firstWalked, restWalked⟩
      rcases ofStmt_alpha inFunction head same firstWalked with ⟨more, moreToo, rfl, firstToo, same⟩
      rcases ofStmts_alpha inFunction tail same restWalked with ⟨last, lastToo, rfl, restToo, same⟩
      exact ⟨last, lastToo, rfl, bind_eq_ok.mpr ⟨_, firstToo, restToo⟩, same⟩

theorem ofStmt?_alpha (inFunction : Bool) : ∀ {pairing after : Pairing} {s sToo : Option Stmt},
    Stmt.Alpha? pairing s sToo after → ∀ {found foundToo : List Reference} {walk : Walk},
    SameFindings found foundToo → ofStmt? inFunction s ⟨pairing.lefts, found⟩ = .ok walk →
      Accompanies after walk (ofStmt? inFunction sToo ⟨pairing.rights, foundToo⟩)
  | _, _, _, _, .none _, found, foundToo, _, same, walked => by
      cases walked
      exact ⟨found, foundToo, rfl, rfl, same⟩
  | _, _, _, _, .some present, _, _, _, same, walked => by
      rw [ofStmt?] at walked ⊢
      exact ofStmt_alpha inFunction present same walked

end

end Resolution

/-- When a program is accepted, so is every alpha-equivalent one, with the same findings. -/
theorem resolve_alpha {program programToo : List Stmt} {after : Pairing} {references : List Reference}
    (alpha : Stmt.AlphaAll [] program programToo after) (accepted : resolve program = .ok references) :
    ∃ referencesToo, resolve programToo = .ok referencesToo ∧ SameFindings references referencesToo := by
  rcases bind_eq_ok.mp accepted with ⟨walk, walked, made⟩
  cases made
  have nothing : SameFindings [] [] := rfl
  rcases Resolution.ofStmts_alpha false alpha nothing walked with ⟨found, foundToo, rfl, walkedToo, same⟩
  exact ⟨_, bind_eq_ok.mpr ⟨_, walkedToo, rfl⟩, same.reverse⟩

end ScopedScript

import ScopedScript.Proofs.Renaming.Pairings
import ScopedScript.Proofs.Sites.Positions
namespace ScopedScript

/-!
# Giving a local variable another name

A local variable or parameter is told by the scope that declares it and by its name.  To give it another name is
to change its declaration and those references that mean it, and nothing else: another variable of the same name
keeps its name, in whatever scope it is.

When the references that are changed are those that the scope analysis binds to the variable, and the new name
is not used anywhere, what comes of it is alpha-equivalent to the program.
-/

open Resolution (ScopeChain distance? extended extendedAll Fresh AllFresh)

/-- Another name for a local variable, with the references that mean the variable. -/
structure Renaming where
  scope : Position
  name : String
  newName : String
  uses : List RefId

namespace Renaming

variable (r : Renaming)

/-- What a name is called when it is declared in a scope. -/
def spelled (scope : Position) (name : String) : String :=
  if scope = r.scope ∧ name = r.name then r.newName else name

/-- What a name is called when it is declared inside these scopes.  At the top level it stays. -/
def declaredName : List Position → String → String
  | [], name => name
  | scope :: _, name => r.spelled scope name

/-- A declared name. -/
def declared (scopes : List Position) (target : Identifier) : Identifier :=
  ⟨r.declaredName scopes target.name, target.line⟩

/-- The name of a reference. -/
def used (ref : RefId) (target : Identifier) : Identifier :=
  ⟨if ref ∈ r.uses then r.newName else target.name, target.line⟩

end Renaming

namespace Expr

mutual

/-- An expression in which the references to the variable have its new name. -/
def rename (r : Renaming) : Expr → Expr
  | .constant value => .constant value
  | .group inner => .group (inner.rename r)
  | .unary op line operand => .unary op line (operand.rename r)
  | .binary op line left right => .binary op line (left.rename r) (right.rename r)
  | .logical op left right => .logical op (left.rename r) (right.rename r)
  | .variable ref target => .variable ref (r.used ref target)
  | .assign ref target value => .assign ref (r.used ref target) (value.rename r)
  | .call callee line arguments => .call (callee.rename r) line (renameAll r arguments)

/-- Several such expressions. -/
def renameAll (r : Renaming) : List Expr → List Expr
  | [] => []
  | first :: rest => first.rename r :: renameAll r rest

end

/-- Such an expression, which may be absent. -/
def rename? (r : Renaming) (e : Option Expr) : Option Expr := e.map (rename r)

end Expr

namespace Stmt

mutual

/-- A statement at this place in which the variable has its new name. -/
def rename (r : Renaming) (scopes : List Position) (here : Position) : Stmt → Stmt
  | .expression value => .expression (value.rename r)
  | .print line values => .print line (Expr.renameAll r values)
  | .declare target initializer => .declare (r.declared scopes target) (Expr.rename? r initializer)
  | .block body => .block (renameAll r (here :: scopes) here 0 body)
  | .branch condition whenTrue whenFalse =>
    .branch (condition.rename r) (whenTrue.rename r scopes (0 :: here)) (rename? r scopes (1 :: here) whenFalse)
  | .whileLoop condition body => .whileLoop (condition.rename r) (body.rename r scopes (0 :: here))
  | .forLoop first condition increment body =>
    .forLoop (rename? r (here :: scopes) (0 :: here) first) (Expr.rename? r condition) (Expr.rename? r increment)
      (body.rename r (here :: scopes) (1 :: here))
  | .function target parameters body =>
    .function target (parameters.map (r.declared (here :: scopes))) (renameAll r (here :: scopes) here 0 body)
  | .giveBack line value => .giveBack line (Expr.rename? r value)

/-- Such statements in order, which stand side by side from the given index on. -/
def renameAll (r : Renaming) (scopes : List Position) (here : Position) (index : Nat) : List Stmt → List Stmt
  | [] => []
  | first :: rest => first.rename r scopes (index :: here) :: renameAll r scopes here (index + 1) rest

/-- Such a statement, which may be absent. -/
def rename? (r : Renaming) (scopes : List Position) (here : Position) : Option Stmt → Option Stmt
  | none => none
  | some s => some (s.rename r scopes here)

end

end Stmt

/-- A program in which the variable has its new name. -/
def Renaming.program (r : Renaming) (program : List Stmt) : List Stmt := Stmt.renameAll r [] [] 0 program

/-! ## What has to be changed -/

namespace Renaming

variable {r : Renaming} {scopes : List Position} {chain : ScopeChain} {name : String}

/-- The renaming changes what it has to at a site: those references which are found in the scope of the variable,
with its name, and no function.  The new name is not there. -/
def Suits (r : Renaming) (distances : Distances) (site : Site) : Prop :=
  match site with
  | ⟨scopes, .declares kind target⟩ =>
    target.name ≠ r.newName ∧ (kind = .function → r.declared scopes target = target)
  | ⟨scopes, .refers ref _ target _⟩ =>
    target.name ≠ r.newName ∧
      (ref ∈ r.uses ↔ target.name = r.name ∧ (distances.find? ref).bind (scopes[·]?) = some r.scope)
  | ⟨_, .returns _ _⟩ => True

/-- The names that scopes have declared, with what they are called afterwards. -/
def pairing (r : Renaming) (scopes : List Position) (chain : ScopeChain) : Pairing :=
  List.zipWith (fun scope names => names.map fun name => (name, r.spelled scope name)) scopes chain

/-- The scopes have declared these names, none of which is the new one. -/
structure Around (r : Renaming) (scopes : List Position) (chain : ScopeChain) : Prop where
  length : scopes.length = chain.length
  unused : ∀ names ∈ chain, r.newName ∉ names

theorem spelled_eq {scope : Position} (different : name ≠ r.newName) {other : String}
    (otherDifferent : other ≠ r.newName)
    (same : r.spelled scope name = r.spelled scope other) : name = other := by
  unfold spelled at same
  split at same
  · split at same
    · rename_i left right
      exact left.2.trans right.2.symm
    · exact absurd same.symm otherDifferent
  · split at same
    · exact absurd same different
    · exact same

/-- The scope in which a name is found is the innermost one, or it is found outside of that one. -/
theorem found_cons (scope : Position) (innermost : List String) (outer : ScopeChain) :
    (distance? (innermost :: outer) name).bind ((scope :: scopes)[·]?) =
      if name ∈ innermost then some scope else (distance? outer name).bind (scopes[·]?) := by
  rw [Resolution.distance?_cons]
  split
  · rfl
  · cases distance? outer name <;> rfl

namespace Around

theorem nil (r : Renaming) : r.Around [] [] := ⟨rfl, nofun⟩

theorem enter (around : r.Around scopes chain) (here : Position) : r.Around (here :: scopes) ([] :: chain) := by
  refine ⟨congrArg (· + 1) around.length, fun names member => ?_⟩
  rcases List.mem_cons.mp member with rfl | outer
  · exact List.not_mem_nil
  · exact around.unused names outer

theorem declare (around : r.Around scopes chain) (different : name ≠ r.newName) :
    r.Around scopes (extended name chain) := by
  cases chain with
  | nil => exact around
  | cons innermost outer =>
      refine ⟨around.length, fun names member => ?_⟩
      rcases List.mem_cons.mp member with rfl | outer
      · rw [List.mem_cons, not_or]
        exact ⟨different.symm, around.unused innermost List.mem_cons_self⟩
      · exact around.unused names (List.mem_cons_of_mem _ outer)

/-- A new name can be declared together with what it is called afterwards. -/
theorem admits (around : r.Around scopes chain) {target : Identifier} (different : target.name ≠ r.newName)
    (fresh : Fresh target.name chain) :
    (r.pairing scopes chain).Admits target.name (r.declared scopes target).name := by
  match scopes, chain, around with
  | [], [], _ => rfl
  | scope :: scopes, innermost :: outer, around =>
      refine ⟨?_, ?_⟩
      · rw [List.map_map]
        exact fun member => fresh (by simpa using member)
      · rw [List.map_map]
        intro member
        rcases List.mem_map.mp member with ⟨other, known, same⟩
        have otherDifferent : other ≠ r.newName := by
          rintro rfl
          exact around.unused innermost List.mem_cons_self known
        cases spelled_eq otherDifferent different same
        exact fresh known

theorem pairing_declare (around : r.Around scopes chain) (target : Identifier) :
    (r.pairing scopes chain).declare target.name (r.declared scopes target).name =
      r.pairing scopes (extended target.name chain) := by
  match scopes, chain, around with
  | [], [], _ => rfl
  | scope :: scopes, innermost :: outer, _ => rfl

/-- A reference means the same as before when it gets the new name exactly if it is found in the scope of the
variable. -/
theorem means (around : r.Around scopes chain) (different : name ≠ r.newName) :
    (r.pairing scopes chain).Means name
      (if name = r.name ∧ (distance? chain name).bind (scopes[·]?) = some r.scope then r.newName else name) := by
  induction scopes generalizing chain with
  | nil =>
      have elsewhere : (distance? chain name).bind (([] : List Position)[·]?) = none := by
        cases distance? chain name <;> rfl
      rw [elsewhere, if_neg fun found => nomatch found.2]
      rfl
  | cons scope scopes inductionHypothesis =>
      match chain, around with
      | innermost :: outer, around =>
          rw [found_cons]
          by_cases known : name ∈ innermost
          · refine .inl (List.mem_map.mpr ⟨name, known, ?_⟩)
            simp only [if_pos known, Option.some.injEq, spelled, and_comm]
          · rw [if_neg known]
            refine .inr ⟨by simpa using known, fun member => ?_, inductionHypothesis ?_⟩
            · rw [List.map_map] at member
              rcases List.mem_map.mp member with ⟨other, knownToo, same⟩
              have otherDifferent : other ≠ r.newName := by
                rintro rfl
                exact around.unused innermost List.mem_cons_self knownToo
              dsimp only [Function.comp] at same
              unfold spelled at same
              split at same
              · rename_i there
                split at same
                · rename_i here
                  exact known (here.1.trans there.2.symm ▸ knownToo)
                · exact different same.symm
              · split at same
                · exact otherDifferent same
                · exact known (same ▸ knownToo)
            · exact ⟨Nat.succ.inj around.length,
                fun names member => around.unused names (List.mem_cons_of_mem _ member)⟩

end Around

/-- What the scope analysis has found out about references. -/
abbrev foundBy (distances : Distances) : Known := fun ref distance => distances.find? ref = distance

variable {distances : Distances}

/-- A reference in a program means the same as before. -/
theorem Suits.means {ref : RefId} {access : Access} {target : Identifier} {owner : Option String}
    (suits : r.Suits distances ⟨scopes, .refers ref access target owner⟩) (around : r.Around scopes chain)
    (found : distances.find? ref = distance? chain target.name) :
    (r.pairing scopes chain).Means target.name (r.used ref target).name := by
  have means := around.means suits.1
  rw [← found] at means
  simpa only [used, suits.2] using means

end Renaming

open Renaming (Suits foundBy)

variable {r : Renaming} {distances : Distances} {scopes : List Position} {chain : ScopeChain}

namespace Expr

section

variable {unready owner : Option String}

mutual

theorem alpha_rename (around : r.Around scopes chain) : ∀ {e : Expr}, e.Bound (foundBy distances) chain unready →
    (∀ site ∈ Site.ofExpr scopes owner e, r.Suits distances site) → e.Alpha (r.pairing scopes chain) (e.rename r)
  | .constant value, _, _ => .constant value
  | .group _, bound, suits => .group (alpha_rename around bound suits)
  | .unary op line _, bound, suits => .unary op line (alpha_rename around bound suits)
  | .binary op line _ _, ⟨left, right⟩, suits => by
      rw [Site.ofExpr, List.forall_mem_append] at suits
      exact .binary op line (alpha_rename around left suits.1) (alpha_rename around right suits.2)
  | .logical op _ _, ⟨left, right⟩, suits => by
      rw [Site.ofExpr, List.forall_mem_append] at suits
      exact .logical op (alpha_rename around left suits.1) (alpha_rename around right suits.2)
  | .variable ref target, ⟨_, found⟩, suits => by
      have own := suits _ List.mem_cons_self
      exact .variable ref target.line (own.means around found)
  | .assign ref target _, ⟨bound, found⟩, suits => by
      rw [Site.ofExpr, List.forall_mem_append] at suits
      have own := suits.2 _ List.mem_cons_self
      exact .assign ref target.line (own.means around found) (alpha_rename around bound suits.1)
  | .call _ line _, ⟨callee, arguments⟩, suits => by
      rw [Site.ofExpr, List.forall_mem_append] at suits
      exact .call line (alpha_rename around callee suits.1) (alphaAll_rename around arguments suits.2)

theorem alphaAll_rename (around : r.Around scopes chain) : ∀ {es : List Expr},
    AllBound (foundBy distances) chain unready es →
    (∀ site ∈ Site.ofExprs scopes owner es, r.Suits distances site) →
      AlphaAll (r.pairing scopes chain) es (renameAll r es)
  | [], _, _ => .nil
  | _ :: _, ⟨first, rest⟩, suits => by
      rw [Site.ofExprs, List.forall_mem_append] at suits
      exact .cons (alpha_rename around first suits.1) (alphaAll_rename around rest suits.2)

end

theorem alpha?_rename (around : r.Around scopes chain) {e : Option Expr}
    (bound : Bound? (foundBy distances) chain unready e)
    (suits : ∀ site ∈ Site.ofExpr? scopes owner e, r.Suits distances site) :
    Alpha? (r.pairing scopes chain) e (rename? r e) := by
  cases e with
  | none => exact .none
  | some e => exact .some (alpha_rename around bound suits)

end

end Expr

namespace Stmt

/-- The scopes behind a statement have not declared the new name either. -/
theorem around_extend {here : Position} {inFunction : Bool} {s : Stmt} (around : r.Around scopes chain)
    (suits : ∀ site ∈ Site.ofStmt scopes here inFunction s, r.Suits distances site) :
    r.Around scopes (s.extend chain) := by
  cases s with
  | declare target initializer => exact around.declare (suits _ List.mem_cons_self).1
  | function target parameters body => exact around.declare (suits _ List.mem_cons_self).1
  | _ => exact around

theorem parameters_rename : ∀ {parameters : List Identifier} {chain : ScopeChain}, r.Around scopes chain →
    AllFresh parameters chain → (∀ site ∈ Site.ofParameters scopes parameters, r.Suits distances site) →
    (r.pairing scopes chain).Parameters parameters (parameters.map (r.declared scopes))
        (r.pairing scopes (extendedAll parameters chain)) ∧
      r.Around scopes (extendedAll parameters chain)
  | [], _, around, _, _ => ⟨.nil _, around⟩
  | target :: rest, chain, around, ⟨fresh, allFresh⟩, suits => by
      rw [Site.ofParameters, List.map_cons, List.forall_mem_cons] at suits
      have different : target.name ≠ r.newName := suits.1.1
      rcases parameters_rename (around.declare different) allFresh suits.2 with ⟨tail, inner⟩
      rw [← around.pairing_declare target] at tail
      exact ⟨.cons target.line (around.admits different fresh) tail, inner⟩

mutual

theorem alpha_rename : ∀ {s : Stmt} {scopes : List Position} {chain : ScopeChain} {here : Position}
    {inFunction : Bool}, r.Around scopes chain → s.Bound (foundBy distances) chain →
    (∀ site ∈ Site.ofStmt scopes here inFunction s, r.Suits distances site) →
      s.Alpha (r.pairing scopes chain) (s.rename r scopes here) (r.pairing scopes (s.extend chain))
  | .expression _, _, _, _, _, around, bound, suits => .expression (Expr.alpha_rename around bound suits)
  | .print line _, _, _, _, _, around, bound, suits => .print line (Expr.alphaAll_rename around bound suits)
  | .declare target _, _, _, _, _, around, ⟨fresh, bound⟩, suits => by
      rw [Site.ofStmt, List.forall_mem_cons] at suits
      have different : target.name ≠ r.newName := suits.1.1
      have inside := Expr.alpha?_rename (around.declare different) bound suits.2
      have declared := Alpha.declare target.line (around.admits different fresh)
        (by rw [around.pairing_declare]; exact inside)
      rw [around.pairing_declare] at declared
      exact declared
  | .block _, _, _, here, _, around, bound, suits => by
      rcases alphaAll_rename (around.enter here) bound suits with ⟨after, inside⟩
      exact .block inside
  | .branch _ _ _, _, _, _, _, around, ⟨bound, ⟨trueBound, nothing⟩, falseBound⟩, suits => by
      rw [Site.ofStmt, List.forall_mem_append, List.forall_mem_append] at suits
      have ifTrue := alpha_rename around trueBound suits.2.1
      rw [extend_eq nothing] at ifTrue
      exact .branch (Expr.alpha_rename around bound suits.1) ifTrue (alpha?_rename around falseBound suits.2.2)
  | .whileLoop _ _, _, _, _, _, around, ⟨bound, bodyBound, nothing⟩, suits => by
      rw [Site.ofStmt, List.forall_mem_append] at suits
      have inside := alpha_rename around bodyBound suits.2
      rw [extend_eq nothing] at inside
      exact .whileLoop (Expr.alpha_rename around bound suits.1) inside
  | .forLoop _ _ _ _, _, _, here, _, around, ⟨firstBound, bound, stepBound, bodyBound, nothing⟩, suits => by
      rw [Site.ofStmt, List.forall_mem_append, List.forall_mem_append, List.forall_mem_append] at suits
      rcases begins_rename (around.enter here) firstBound suits.1 with ⟨begins, inner⟩
      have inside := alpha_rename inner bodyBound suits.2.2.2
      rw [extend_eq nothing] at inside
      exact .forLoop begins (Expr.alpha?_rename inner bound suits.2.1)
        (Expr.alpha?_rename inner stepBound suits.2.2.1)
        inside
  | .function target _ _, _, _, here, _, around, ⟨fresh, allFresh, bound⟩, suits => by
      rw [Site.ofStmt, List.forall_mem_cons, List.forall_mem_append] at suits
      have different : target.name ≠ r.newName := suits.1.1
      have stays := suits.1.2 rfl
      have admits := around.admits different fresh
      have behind := around.pairing_declare target
      rw [stays] at admits behind
      have inner := (around.declare different).enter here
      rcases parameters_rename inner allFresh suits.2.1 with ⟨together, around⟩
      rcases alphaAll_rename around bound suits.2.2 with ⟨after, inside⟩
      have made := Alpha.function target admits (by rw [behind]; exact together) inside
      rw [behind] at made
      exact made
  | .giveBack line _, _, _, _, _, around, bound, suits => by
      rw [Site.ofStmt, List.forall_mem_cons] at suits
      exact .giveBack line (Expr.alpha?_rename around bound suits.2)

theorem alphaAll_rename : ∀ {ss : List Stmt} {scopes : List Position} {chain : ScopeChain} {here : Position}
    {inFunction : Bool} {index : Nat}, r.Around scopes chain → AllBound (foundBy distances) chain ss →
    (∀ site ∈ Site.ofStmts scopes here inFunction index ss, r.Suits distances site) →
      ∃ after, AlphaAll (r.pairing scopes chain) ss (renameAll r scopes here index ss) after
  | [], _, _, _, _, _, _, _, _ => ⟨_, .nil _⟩
  | _ :: _, _, _, _, _, _, around, ⟨first, rest⟩, suits => by
      rw [Site.ofStmts, List.forall_mem_append] at suits
      rcases alphaAll_rename (around_extend around suits.1) rest suits.2 with ⟨after, tail⟩
      exact ⟨after, .cons (alpha_rename around first suits.1) tail⟩

theorem alpha?_rename : ∀ {s : Option Stmt} {scopes : List Position} {chain : ScopeChain} {here : Position}
    {inFunction : Bool}, r.Around scopes chain → BranchBound (foundBy distances) chain s →
    (∀ site ∈ Site.ofStmt? scopes here inFunction s, r.Suits distances site) →
      Alpha? (r.pairing scopes chain) s (rename? r scopes here s) (r.pairing scopes chain)
  | none, _, _, _, _, _, _, _ => .none _
  | some _, _, _, _, _, around, ⟨bound, nothing⟩, suits => by
      rw [Site.ofStmt?] at suits
      have present := alpha_rename around bound suits
      rw [extend_eq nothing] at present
      exact .some present

theorem begins_rename : ∀ {s : Option Stmt} {scopes : List Position} {chain : ScopeChain} {here : Position}
    {inFunction : Bool}, r.Around scopes chain → Bound? (foundBy distances) chain s →
    (∀ site ∈ Site.ofStmt? scopes here inFunction s, r.Suits distances site) →
      Alpha? (r.pairing scopes chain) s (rename? r scopes here s) (r.pairing scopes (extend? chain s)) ∧
        r.Around scopes (extend? chain s)
  | none, _, _, _, _, around, _, _ => ⟨.none _, around⟩
  | some _, _, _, _, _, around, bound, suits => by
      rw [Site.ofStmt?] at suits
      exact ⟨.some (alpha_rename around bound suits), around_extend around suits⟩

end

end Stmt

end ScopedScript

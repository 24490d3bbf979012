import ScopedScript.Proofs.Sites.Positions
namespace ScopedScript

/-!
# The scope analysis as a visit of all sites

The analysis walks over a tree and changes its chain of scopes on the way.  Visiting the sites of the tree one
after the other comes to the same: what the chain holds at a site can be read off the sites before it, since the
names in an open scope are those that these sites declare in it.  `resolve_eq_visit` says so of whole programs.

Every scope is opened at a place of its own.  So nothing has been declared in it before, and what is declared
inside it does not change the scopes around it.
-/

open Resolution (ScopeChain Walk)
open Position (Outside Around Apart)

namespace Site

/-- The chain of scopes at a site, after the sites before it. -/
def chain (visited : List Site) (scopes : List Position) : ScopeChain := scopes.map (namesIn · visited)

/-- What is wrong at a site, after the sites before it. -/
def fault? (visited : List Site) (site : Site) : Option ScopeError :=
  match site with
  | ⟨scope :: _, .declares _ target⟩ =>
    if target.name ∈ namesIn scope visited then some ⟨.duplicateDeclaration, target⟩ else none
  | ⟨_ :: _, .refers _ .read target (some owner)⟩ =>
    if owner = target.name then some ⟨.ownInitializer, target⟩ else none
  | ⟨_, .returns line false⟩ => some ⟨.returnOutsideFunction, ⟨"return", line⟩⟩
  | _ => none

/-- The reference at a site, if there is one, with its distance after the sites before it. -/
def reference? (visited : List Site) (site : Site) : Option Reference :=
  match site.deed with
  | .refers ref access target _ =>
    some ⟨ref, access, target, Resolution.distance? (chain visited site.scopes) target.name⟩
  | _ => none

/-- The references of sites in front of those already found, or the first fault. -/
def visit (visited : List Site) : List Site → List Reference → Except ScopeError (List Reference)
  | [], found => .ok found
  | site :: rest, found =>
    match fault? visited site with
    | some error => .error error
    | none => visit (visited ++ [site]) rest ((reference? visited site).toList ++ found)

variable {visited more rest : List Site} {scopes : List Position} {scope here : Position} {found : List Reference}

theorem visit_append : visit visited (more ++ rest) found =
    visit visited more found >>= visit (visited ++ more) rest := by
  induction more generalizing visited found with
  | nil =>
      rw [List.append_nil]
      rfl
  | cons site others inductionHypothesis =>
      rw [List.cons_append, visit, visit]
      cases fault? visited site with
      | some error => rfl
      | none =>
          dsimp only
          rw [inductionHypothesis, List.append_assoc]
          rfl

/-! ## What a visit comes to -/

/-- Nothing is wrong at any of the sites. -/
def Clean (visited more : List Site) : Prop :=
  ∀ before site later, more = before ++ site :: later → fault? (visited ++ before) site = none

/-- The references of sites in order. -/
def references (visited : List Site) : List Site → List Reference
  | [] => []
  | site :: rest => (reference? visited site).toList ++ references (visited ++ [site]) rest

theorem clean_nil : Clean visited [] := by
  intro before site later split
  cases before <;> cases split

theorem clean_cons {site : Site} :
    Clean visited (site :: rest) ↔ fault? visited site = none ∧ Clean (visited ++ [site]) rest := by
  constructor
  · intro clean
    refine ⟨?_, fun before other later split => ?_⟩
    · have here := clean [] site rest rfl
      rwa [List.append_nil] at here
    · rw [List.append_assoc]
      exact clean (site :: before) other later (congrArg (site :: ·) split)
  · rintro ⟨here, behind⟩ before other later split
    cases before with
    | nil =>
        cases split
        rwa [List.append_nil]
    | cons first before =>
        cases split
        rw [List.append_cons]
        exact behind before other later rfl

/-- When nothing is wrong, a visit notes all references. -/
theorem visit_of_clean (clean : Clean visited more) (found : List Reference) :
    visit visited more found = .ok ((references visited more).reverse ++ found) := by
  induction more generalizing visited found with
  | nil => rfl
  | cons site rest inductionHypothesis =>
      rcases clean_cons.mp clean with ⟨here, behind⟩
      rw [visit, here, references, List.reverse_append, List.append_assoc]
      refine (inductionHypothesis behind _).trans ?_
      cases reference? visited site <;> rfl

/-- A visit ends at the first site where something is wrong. -/
theorem visit_of_fault {before later : List Site} {site : Site} {error : ScopeError}
    (clean : Clean visited before) (wrong : fault? (visited ++ before) site = some error)
    (found : List Reference) : visit visited (before ++ site :: later) found = .error error := by
  rw [visit_append, visit_of_clean clean]
  change visit (visited ++ before) (site :: later) _ = _
  rw [visit, wrong]

/-- Either nothing is wrong or some site is the first one where something is. -/
theorem clean_or_fault (visited more : List Site) : Clean visited more ∨
    ∃ before site later error, more = before ++ site :: later ∧ Clean visited before ∧
      fault? (visited ++ before) site = some error := by
  induction more generalizing visited with
  | nil => exact .inl clean_nil
  | cons site rest inductionHypothesis =>
      cases here : fault? visited site with
      | some error =>
          exact .inr ⟨[], site, rest, error, rfl, clean_nil, by rwa [List.append_nil]⟩
      | none =>
          rcases inductionHypothesis (visited ++ [site]) with clean | ⟨before, other, later, error, rfl,
            clean, wrong⟩
          · exact .inl (clean_cons.mpr ⟨here, clean⟩)
          · refine .inr ⟨site :: before, other, later, error, rfl, clean_cons.mpr ⟨here, clean⟩, ?_⟩
            rwa [List.append_cons]

/-- The references of sites are those at the single sites. -/
theorem mem_references {reference : Reference} : reference ∈ references visited more ↔
    ∃ before site later, more = before ++ site :: later ∧
      reference? (visited ++ before) site = some reference := by
  induction more generalizing visited with
  | nil =>
      constructor
      · exact List.not_mem_nil.elim
      · rintro ⟨before, site, later, split, _⟩
        cases before <;> cases split
  | cons first rest inductionHypothesis =>
      rw [references, List.mem_append, Option.mem_toList, inductionHypothesis]
      constructor
      · rintro (here | ⟨before, site, later, rfl, noted⟩)
        · exact ⟨[], first, rest, rfl, by rwa [List.append_nil]⟩
        · exact ⟨first :: before, site, later, rfl, by rwa [List.append_cons]⟩
      · rintro ⟨before, site, later, split, noted⟩
        cases before with
        | nil =>
            cases split
            rw [List.append_nil] at noted
            exact .inl noted
        | cons other before =>
            cases split
            exact .inr ⟨before, site, later, rfl, by rwa [← List.append_cons]⟩

/-! ## The names in a scope -/

theorem namesIn_append (scope : Position) (visited more : List Site) :
    namesIn scope (visited ++ more) = namesIn scope more ++ namesIn scope visited := by
  rw [namesIn, List.filterMap_append, List.reverse_append]
  rfl

theorem mem_namesIn {name : String} :
    name ∈ namesIn scope visited ↔ ∃ site ∈ visited, site.declaration? = some (scope, name) := by
  rw [namesIn, List.mem_reverse, List.mem_filterMap]
  refine exists_congr fun site => and_congr_right fun _ => ?_
  cases site.declaration? with
  | none => simp
  | some declared =>
      rcases declared with ⟨other, declared⟩
      by_cases same : other = scope <;> simp [same]

theorem namesIn_eq_nil (elsewhere : ∀ site ∈ more, ∀ name, site.declaration? ≠ some (scope, name)) :
    namesIn scope more = [] := by
  rw [namesIn, List.reverse_eq_nil_iff, List.filterMap_eq_nil_iff]
  intro site member
  have other := elsewhere site member
  cases declared : site.declaration? with
  | none => rfl
  | some pair =>
      rcases pair with ⟨scope', name⟩
      refine if_neg fun same => other name ?_
      rw [declared, ← same]

/-- What is declared in a scope is declared in the innermost scope of a site. -/
theorem head?_of_declaration? {site : Site} {name : String}
    (declared : site.declaration? = some (scope, name)) : site.scopes.head? = some scope := by
  rcases site with ⟨_ | ⟨innermost, outer⟩, deed⟩
  · cases declared
  · cases deed <;> cases declared
    rfl

theorem chain_append_of_declaresNothing (nothing : ∀ site ∈ more, site.declaration? = none) :
    chain (visited ++ more) scopes = chain visited scopes := by
  refine List.map_congr_left fun scope _ => ?_
  rw [namesIn_append, namesIn_eq_nil, List.nil_append]
  intro site member name declared
  rw [nothing site member] at declared
  cases declared

/-- What is declared inside a statement changes none of the scopes around it. -/
theorem chain_append_of_around (around : ∀ site ∈ more, Around here site.scopes)
    (outside : Outside here scopes) : chain (visited ++ more) scopes = chain visited scopes := by
  refine List.map_congr_left fun scope surrounding => ?_
  rw [namesIn_append, namesIn_eq_nil, List.nil_append]
  intro site member name declared
  exact outside scope surrounding (around site member scope (head?_of_declaration? declared))

/-- A scope that is opened where nothing has been visited begins without names. -/
theorem chain_cons_of_unvisited (unvisited : ∀ site ∈ visited, Outside here site.scopes) :
    chain visited (here :: scopes) = [] :: chain visited scopes := by
  rw [chain, List.map_cons, namesIn_eq_nil]
  · rfl
  · intro site member name declared
    refine unvisited site member here ?_ List.suffix_rfl
    exact List.mem_of_mem_head? (head?_of_declaration? declared)

/-- A declaration puts its name in front of those in the innermost scope. -/
theorem chain_concat_declares {kind : DeclarationKind} {target : Identifier} (outer : List Position)
    (distinct : scope ∉ outer) :
    chain (visited ++ [⟨scope :: outer, .declares kind target⟩]) (scope :: outer) =
      (target.name :: namesIn scope visited) :: chain visited outer := by
  refine congrArg₂ List.cons ?_ (List.map_congr_left fun other member => ?_)
  · dsimp only
    rw [namesIn_append]
    simp [namesIn, declaration?]
  · rw [namesIn_append, namesIn_eq_nil, List.nil_append]
    intro site single name declared
    rw [List.mem_singleton] at single
    subst single
    cases declared
    exact distinct member

/-! ## Expressions -/

/-- The name that must not be read: at the top level there is none. -/
def waiting : List Position → Option String → Option String
  | [], _ => none
  | _ :: _, owner => owner

theorem waiting_none (scopes : List Position) : waiting scopes none = none := by cases scopes <;> rfl

theorem visit_read (scopes : List Position) (owner : Option String) (ref : RefId) (target : Identifier) :
    visit visited [⟨scopes, .refers ref .read target owner⟩] found =
      if waiting scopes owner = some target.name then .error ⟨.ownInitializer, target⟩
      else .ok (Resolution.note (chain visited scopes) ref .read target found) := by
  rw [visit]
  cases scopes with
  | nil => rfl
  | cons scope outer =>
      cases owner with
      | none => rfl
      | some owner =>
          by_cases same : owner = target.name
          · simp [fault?, waiting, same]
          · simp [fault?, waiting, same, visit, reference?, Resolution.note]

/-- What an expression declares, namely nothing, does not change the chain. -/
theorem chain_append_ofExpr (visited : List Site) (owner : Option String) (e : Expr) :
    chain (visited ++ ofExpr scopes owner e) scopes = chain visited scopes :=
  chain_append_of_declaresNothing fun _ member => (of_mem_ofExpr member).2

theorem chain_append_ofExpr? (visited : List Site) (owner : Option String) (e : Option Expr) :
    chain (visited ++ ofExpr? scopes owner e) scopes = chain visited scopes :=
  chain_append_of_declaresNothing fun _ member => (of_mem_ofExpr? member).2

theorem chain_append_ofExprs (visited : List Site) (owner : Option String) (es : List Expr) :
    chain (visited ++ ofExprs scopes owner es) scopes = chain visited scopes :=
  chain_append_of_declaresNothing fun _ member => (of_mem_ofExprs member).2

mutual

/-- Walking over an expression is visiting its sites. -/
theorem ofExpr_visit (owner : Option String) :
    ∀ (e : Expr) (visited : List Site) (found : List Reference),
      Resolution.ofExpr (chain visited scopes) (waiting scopes owner) e found =
        visit visited (ofExpr scopes owner e) found
  | .constant _, visited, found => rfl
  | .group inner, visited, found => by
      rw [Resolution.ofExpr, ofExpr]
      exact ofExpr_visit owner inner visited found
  | .unary _ _ operand, visited, found => by
      rw [Resolution.ofExpr, ofExpr]
      exact ofExpr_visit owner operand visited found
  | .binary _ _ left right, visited, found | .logical _ left right, visited, found => by
      rw [Resolution.ofExpr, ofExpr, visit_append, ofExpr_visit owner left visited found]
      refine congrArg _ (funext fun found => ?_)
      rw [← ofExpr_visit owner right, chain_append_ofExpr]
  | .variable ref target, visited, found => by
      rw [Resolution.ofExpr, ofExpr, visit_read]
  | .assign ref target value, visited, found => by
      rw [Resolution.ofExpr, ofExpr, visit_append, ofExpr_visit owner value visited found]
      refine congrArg _ (funext fun found => ?_)
      rw [← chain_append_ofExpr visited owner value]
      cases scopes <;> rfl
  | .call callee _ arguments, visited, found => by
      rw [Resolution.ofExpr, ofExpr, visit_append, ofExpr_visit owner callee visited found]
      refine congrArg _ (funext fun found => ?_)
      rw [← ofExprs_visit owner arguments, chain_append_ofExpr]

theorem ofExprs_visit (owner : Option String) :
    ∀ (es : List Expr) (visited : List Site) (found : List Reference),
      Resolution.ofExprs (chain visited scopes) (waiting scopes owner) es found =
        visit visited (ofExprs scopes owner es) found
  | [], visited, found => rfl
  | first :: rest, visited, found => by
      rw [Resolution.ofExprs, ofExprs, visit_append, ofExpr_visit owner first visited found]
      refine congrArg _ (funext fun found => ?_)
      rw [← ofExprs_visit owner rest, chain_append_ofExpr]

end

theorem ofExpr?_visit (e : Option Expr) (visited : List Site) (found : List Reference) :
    Resolution.ofExpr? (chain visited scopes) e found = visit visited (ofExpr? scopes none e) found := by
  cases e with
  | none => rfl
  | some e =>
      rw [Resolution.ofExpr?, ofExpr?, ← ofExpr_visit, waiting_none]

/-! ## Declarations -/

/-- Declaring a name is visiting its declaration, whatever is done with the scopes and the references. -/
theorem declare_visit {α : Type} (kind : DeclarationKind) (target : Identifier) (distinct : scopes.Nodup)
    (visited : List Site) (found : List Reference)
    (next : ScopeChain → List Reference → Except ScopeError α) :
    (Resolution.declare target (chain visited scopes) >>= (next · found)) =
      visit visited [⟨scopes, .declares kind target⟩] found >>=
        next (chain (visited ++ [⟨scopes, .declares kind target⟩]) scopes) := by
  cases scopes with
  | nil => rfl
  | cons scope outer =>
      rw [chain_concat_declares outer (List.nodup_cons.mp distinct).1]
      rw [chain, List.map_cons, Resolution.declare, visit, fault?]
      by_cases known : target.name ∈ namesIn scope visited
      · rw [if_pos (List.contains_iff_mem.mpr known), if_pos known]
        rfl
      · rw [if_neg (mt List.contains_iff_mem.mp known), if_neg known]
        rfl

theorem declareAll_visit {α : Type} (distinct : scopes.Nodup)
    (next : ScopeChain → List Reference → Except ScopeError α) :
    ∀ (parameters : List Identifier) (visited : List Site) (found : List Reference),
      (Resolution.declareAll parameters (chain visited scopes) >>= (next · found)) =
        visit visited (ofParameters scopes parameters) found >>=
          next (chain (visited ++ ofParameters scopes parameters) scopes)
  | [], visited, found => by
      rw [ofParameters, List.map_nil, List.append_nil]
      rfl
  | parameter :: rest, visited, found => by
      have inductionHypothesis := declareAll_visit distinct next rest
        (visited ++ [⟨scopes, .declares .parameter parameter⟩])
      have split : ofParameters scopes (parameter :: rest) =
        [⟨scopes, .declares .parameter parameter⟩] ++ ofParameters scopes rest := rfl
      rw [split, visit_append, ← List.append_assoc, bind_assoc, Resolution.declareAll, bind_assoc]
      rw [declare_visit .parameter parameter distinct visited found
        fun scopes found => Resolution.declareAll rest scopes >>= (next · found)]
      exact congrArg _ (funext inductionHypothesis)

/-! ## Statements -/

/-- Nothing inside of the statement at this place has been visited. -/
structure Ahead (here : Position) (scopes : List Position) (visited : List Site) : Prop where
  distinct : scopes.Nodup
  outside : Outside here scopes
  unvisited : ∀ site ∈ visited, Outside here site.scopes

namespace Ahead

theorem child (ahead : Ahead here scopes visited) (k : Nat) : Ahead (k :: here) scopes visited :=
  ⟨ahead.distinct, ahead.outside.child k, fun site member => (ahead.unvisited site member).child k⟩

theorem enter (ahead : Ahead here scopes visited) (k : Nat) : Ahead (k :: here) (here :: scopes) visited :=
  ⟨List.nodup_cons.mpr ⟨fun member => ahead.outside here member List.suffix_rfl, ahead.distinct⟩,
    ahead.outside.enter k, fun site member => (ahead.unvisited site member).child k⟩

theorem past (ahead : Ahead here scopes visited) (elsewhere : ∀ site ∈ more, Outside here site.scopes) :
    Ahead here scopes (visited ++ more) := by
  refine ⟨ahead.distinct, ahead.outside, fun site member => ?_⟩
  rcases List.mem_append.mp member with before | after
  · exact ahead.unvisited site before
  · exact elsewhere site after

/-- Sites in the scopes around a statement are not inside it. -/
theorem past_beside (ahead : Ahead here scopes visited) (beside : ∀ site ∈ more, site.scopes = scopes) :
    Ahead here scopes (visited ++ more) :=
  ahead.past fun site member => (beside site member).symm ▸ ahead.outside

theorem past_ofExpr {owner : Option String} {e : Expr} (ahead : Ahead here scopes visited) :
    Ahead here scopes (visited ++ ofExpr scopes owner e) :=
  ahead.past_beside fun _ member => (of_mem_ofExpr member).1

theorem past_ofExpr? {owner : Option String} {e : Option Expr} (ahead : Ahead here scopes visited) :
    Ahead here scopes (visited ++ ofExpr? scopes owner e) :=
  ahead.past_beside fun _ member => (of_mem_ofExpr? member).1

theorem past_ofStmt {j k : Nat} {inFunction : Bool} {s : Stmt} (ahead : Ahead (k :: here) scopes visited)
    (different : k ≠ j) :
    Ahead (k :: here) scopes (visited ++ ofStmt scopes (j :: here) inFunction s) := by
  refine ahead.past fun site member => ?_
  refine scopes_of_mem_ofStmt (fun place scopes within outside => ?_)
    List.suffix_rfl ahead.outside member
  exact outside.open fun deeper inside => Position.apart_of_ne different here deeper (within.trans inside)

theorem past_ofStmt? {j k : Nat} {inFunction : Bool} {s : Option Stmt}
    (ahead : Ahead (k :: here) scopes visited) (different : k ≠ j) :
    Ahead (k :: here) scopes (visited ++ ofStmt? scopes (j :: here) inFunction s) := by
  cases s with
  | none => exact ahead.past fun site member => nomatch member
  | some s => exact ahead.past_ofStmt different

end Ahead

theorem unready_chain (target : Identifier) (visited : List Site) (scopes : List Position) :
    Resolution.unready target (chain visited scopes) = waiting scopes (some target.name) := by
  cases scopes <;> rfl

/-- Opening a scope here keeps the innermost scope here. -/
theorem around_enters : ∀ place scopes, here <:+ place → Around here scopes → Around here (place :: scopes) :=
  fun place scopes within _ => (Position.around_cons place scopes).weaken within

/-- What is declared in the statement at this place does not change the scopes around it. -/
theorem chain_append_ofStmts {inFunction : Bool} {index : Nat} {ss : List Stmt} (visited : List Site)
    (outside : Outside here scopes) :
    chain (visited ++ ofStmts (here :: scopes) here inFunction index ss) scopes = chain visited scopes :=
  chain_append_of_around (fun _ member => scopes_of_mem_ofStmts around_enters List.suffix_rfl
    (Position.around_cons here scopes) member) outside

theorem chain_append_ofReturn (visited : List Site) (line : Nat) (inFunction : Bool) :
    chain (visited ++ [⟨scopes, .returns line inFunction⟩]) scopes = chain visited scopes := by
  refine chain_append_of_declaresNothing fun site member => ?_
  rw [List.mem_singleton.mp member]
  cases scopes <;> rfl

theorem chain_append_forLoop {inFunction : Bool} {first : Option Stmt} {condition increment : Option Expr}
    {body : Stmt} (visited : List Site) (outside : Outside here scopes) :
    chain (visited ++ ofStmt scopes here inFunction (.forLoop first condition increment body)) scopes =
      chain visited scopes := by
  refine chain_append_of_around (fun site member => ?_) outside
  have header := Position.around_cons here scopes
  rw [ofStmt, List.mem_append, List.mem_append, List.mem_append] at member
  rcases member with first | condition | increment | body
  · exact scopes_of_mem_ofStmt? around_enters (Position.suffix_child 0 here) header first
  · exact (of_mem_ofExpr? condition).1.symm ▸ header
  · exact (of_mem_ofExpr? increment).1.symm ▸ header
  · exact scopes_of_mem_ofStmt around_enters (Position.suffix_child 1 here) header body

theorem chain_append_ofParameters {parameters : List Identifier} (visited : List Site)
    (outside : Outside here scopes) :
    chain (visited ++ ofParameters (here :: scopes) parameters) scopes = chain visited scopes :=
  chain_append_of_around (fun _ member => (scopes_of_mem_ofParameters member).symm ▸
    Position.around_cons here scopes) outside

mutual

/-- Walking over a statement is visiting its sites. -/
theorem ofStmt_visit : ∀ (s : Stmt) {scopes : List Position} {here : Position} {inFunction : Bool}
    {visited : List Site} (found : List Reference), Ahead here scopes visited →
    Resolution.ofStmt inFunction s ⟨chain visited scopes, found⟩ =
      visit visited (ofStmt scopes here inFunction s) found >>= fun after =>
        pure ⟨chain (visited ++ ofStmt scopes here inFunction s) scopes, after⟩
  | .expression value, scopes, here, inFunction, visited, found, ahead => by
      rw [Resolution.ofStmt, ofStmt, chain_append_ofExpr, ← ofExpr_visit, waiting_none]
  | .print _ values, scopes, here, inFunction, visited, found, ahead => by
      rw [Resolution.ofStmt, ofStmt, chain_append_ofExprs, ← ofExprs_visit, waiting_none]
  | .declare target initializer, scopes, here, inFunction, visited, found, ahead => by
      rw [ofStmt, ← List.singleton_append, visit_append, bind_assoc, ← List.append_assoc,
        chain_append_ofExpr?, Resolution.ofStmt]
      cases initializer with
      | none =>
          exact declare_visit (α := Walk) .variable target ahead.distinct visited found
            fun scopes found => .ok ⟨scopes, found⟩
      | some value =>
          refine (declare_visit (α := Walk) .variable target ahead.distinct visited found fun scopes found =>
            Resolution.ofExpr scopes (Resolution.unready target scopes) value found >>= fun found =>
              pure ⟨scopes, found⟩).trans ?_
          refine congrArg _ (funext fun found => ?_)
          rw [ofExpr?, ← ofExpr_visit, unready_chain]
  | .block body, scopes, here, inFunction, visited, found, ahead => by
      rw [Resolution.ofStmt, ofStmt, chain_append_ofStmts visited ahead.outside]
      dsimp only
      rw [← chain_cons_of_unvisited ahead.unvisited, ofStmts_visit body found fun k _ => ahead.enter k,
        bind_assoc]
      rfl
  | .branch condition whenTrue whenFalse, scopes, here, inFunction, visited, found, ahead => by
      have behind : Ahead here scopes (visited ++ ofExpr scopes none condition) := ahead.past_ofExpr
      rw [ofStmt, visit_append, bind_assoc, Resolution.ofStmt, ← ofExpr_visit, waiting_none]
      refine congrArg _ (funext fun found => ?_)
      dsimp only
      rw [← chain_append_ofExpr visited none condition, visit_append, bind_assoc,
        ofStmt_visit whenTrue found (behind.child 0), bind_assoc]
      refine congrArg _ (funext fun found => ?_)
      rw [← List.append_assoc, ← List.append_assoc]
      exact ofStmt?_visit whenFalse found ((behind.child 1).past_ofStmt Nat.one_ne_zero)
  | .whileLoop condition body, scopes, here, inFunction, visited, found, ahead => by
      rw [ofStmt, visit_append, bind_assoc, Resolution.ofStmt, ← ofExpr_visit, waiting_none]
      refine congrArg _ (funext fun found => ?_)
      dsimp only
      rw [← chain_append_ofExpr visited none condition, ← List.append_assoc]
      exact ofStmt_visit body found (ahead.past_ofExpr.child 0)
  | .forLoop first condition increment body, scopes, here, inFunction, visited, found, ahead => by
      rw [chain_append_forLoop visited ahead.outside, ofStmt, Resolution.ofStmt, visit_append, bind_assoc]
      dsimp only
      rw [← chain_cons_of_unvisited ahead.unvisited, ofStmt?_visit first found (ahead.enter 0), bind_assoc]
      refine congrArg _ (funext fun found => ?_)
      have behind : Ahead (1 :: here) (here :: scopes)
          (visited ++ ofStmt? (here :: scopes) (0 :: here) inFunction first) :=
        (ahead.enter 1).past_ofStmt? Nat.one_ne_zero
      generalize visited ++ ofStmt? (here :: scopes) (0 :: here) inFunction first = reached at behind ⊢
      rw [pure_bind, visit_append, bind_assoc, ← ofExpr?_visit]
      refine congrArg _ (funext fun found => ?_)
      rw [visit_append, bind_assoc, ← ofExpr?_visit, chain_append_ofExpr?]
      refine congrArg _ (funext fun found => ?_)
      dsimp only
      rw [← chain_append_ofExpr? reached none condition, ← chain_append_ofExpr? _ none increment,
        ofStmt_visit body found (behind.past_ofExpr?.past_ofExpr?), bind_assoc]
      rfl
  | .function target parameters body, scopes, here, inFunction, visited, found, ahead => by
      have behind : Ahead here scopes (visited ++ [⟨scopes, .declares .function target⟩]) :=
        ahead.past_beside fun site single => by rw [List.mem_singleton.mp single]
      rw [ofStmt, ← List.singleton_append, visit_append, bind_assoc, Resolution.ofStmt, ← List.append_assoc]
      refine (declare_visit (α := Walk) .function target ahead.distinct visited found fun scopes found =>
        Resolution.declareAll parameters ([] :: scopes) >>= fun inside =>
          Resolution.ofStmts true body ⟨inside, found⟩ >>= fun inner => .ok ⟨scopes, inner.found⟩).trans ?_
      refine congrArg _ (funext fun found => ?_)
      generalize visited ++ [⟨scopes, .declares .function target⟩] = visited at behind ⊢
      rw [← List.append_assoc, chain_append_ofStmts _ ahead.outside, chain_append_ofParameters _ ahead.outside,
        ← chain_cons_of_unvisited behind.unvisited, visit_append, bind_assoc]
      refine (declareAll_visit (α := Walk) (behind.enter 0).distinct (fun inside found =>
        Resolution.ofStmts true body ⟨inside, found⟩ >>= fun inner => .ok ⟨chain visited scopes, inner.found⟩)
        parameters visited found).trans ?_
      refine congrArg _ (funext fun found => ?_)
      rw [ofStmts_visit body found fun k _ => (behind.enter k).past_beside fun site member =>
        scopes_of_mem_ofParameters member, bind_assoc]
      rfl
  | .giveBack line value, scopes, here, inFunction, visited, found, ahead => by
      cases inFunction with
      | true =>
          rw [ofStmt, ← List.singleton_append, visit_append, ← List.append_assoc, chain_append_ofExpr?,
            chain_append_ofReturn, bind_assoc, Resolution.ofStmt, if_pos rfl]
          dsimp only
          rw [← chain_append_ofReturn visited line true, ofExpr?_visit]
          cases scopes <;> rfl
      | false =>
          rw [ofStmt, Resolution.ofStmt, visit]
          cases scopes <;> rfl

theorem ofStmts_visit : ∀ (ss : List Stmt) {scopes : List Position} {here : Position} {inFunction : Bool}
    {index : Nat} {visited : List Site} (found : List Reference),
    (∀ k ≥ index, Ahead (k :: here) scopes visited) →
    Resolution.ofStmts inFunction ss ⟨chain visited scopes, found⟩ =
      visit visited (ofStmts scopes here inFunction index ss) found >>= fun after =>
        pure ⟨chain (visited ++ ofStmts scopes here inFunction index ss) scopes, after⟩
  | [], scopes, here, inFunction, index, visited, found, ahead => by
      rw [ofStmts, List.append_nil]
      rfl
  | first :: rest, scopes, here, inFunction, index, visited, found, ahead => by
      rw [ofStmts, visit_append, bind_assoc, Resolution.ofStmts,
        ofStmt_visit first found (ahead index Nat.le.refl), bind_assoc]
      refine congrArg _ (funext fun found => ?_)
      rw [← List.append_assoc]
      exact ofStmts_visit rest found fun k later =>
        (ahead k (Nat.le_of_succ_le later)).past_ofStmt (Nat.ne_of_gt later)

theorem ofStmt?_visit : ∀ (s : Option Stmt) {scopes : List Position} {here : Position} {inFunction : Bool}
    {visited : List Site} (found : List Reference), Ahead here scopes visited →
    Resolution.ofStmt? inFunction s ⟨chain visited scopes, found⟩ =
      visit visited (ofStmt? scopes here inFunction s) found >>= fun after =>
        pure ⟨chain (visited ++ ofStmt? scopes here inFunction s) scopes, after⟩
  | none, scopes, here, inFunction, visited, found, ahead => by
      rw [ofStmt?, List.append_nil]
      rfl
  | some s, scopes, here, inFunction, visited, found, ahead => by
      rw [Resolution.ofStmt?, ofStmt?]
      exact ofStmt_visit s found ahead

end

end Site

/-- The scope analysis visits all sites of the program in order. -/
theorem resolve_eq_visit (program : List Stmt) :
    resolve program = (Site.visit [] (sites program) []).map List.reverse := by
  have walked : Resolution.ofStmts false program ⟨[], []⟩ = Site.visit [] (sites program) [] >>= fun found =>
      pure ⟨Site.chain (sites program) [], found⟩ :=
    Site.ofStmts_visit program [] fun k _ =>
      ⟨List.nodup_nil, fun _ => List.not_mem_nil.elim, fun _ => List.not_mem_nil.elim⟩
  rw [resolve, walked, bind_assoc]
  cases Site.visit [] (sites program) [] <;> rfl

end ScopedScript

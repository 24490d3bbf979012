import Std.Data.TreeMap
import ScopedScript.Syntax
namespace ScopedScript

/-!
# Which scope a reference means

The scope analysis walks a program in the order of its text and notes, for every reference, how many
scopes outward the nearest declaration of its name lies.  Blocks, `for` headers, and functions with
their parameters and body open a scope; the top level is none, so names declared there are left to be
looked up when the program runs.  The walk stops at the first declaration, read or `return` that is
wrong wherever it would run.
-/

/-- Why the scope analysis rejects a program. -/
inductive ScopeFault where
  | duplicateDeclaration
  | ownInitializer
  | returnOutsideFunction
  deriving DecidableEq, Repr

namespace ScopeFault

/-- The wording of a fault. -/
def message : ScopeFault → String
  | duplicateDeclaration => "Already a variable with this name in this scope."
  | ownInitializer => "Can't read local variable in its own initializer."
  | returnOutsideFunction => "Can't return from top-level code."

end ScopeFault

/-- A fault and the name or word it is about. -/
structure ScopeError where
  fault : ScopeFault
  culprit : Identifier
  deriving DecidableEq, Repr

/-- Whether a reference reads or writes its variable. -/
inductive Access where
  | read | write
  deriving DecidableEq, Repr

/-- A reference with the number of scopes between it and its declaration, or none when no scope
around it declares the name. -/
structure Reference where
  ref : RefId
  access : Access
  target : Identifier
  distance? : Option Nat
  deriving DecidableEq, Repr

namespace Resolution

/-- The names declared so far in each open scope, innermost scope first. -/
abbrev ScopeChain := List (List String)

/-- How many scopes outward the nearest declaration of a name lies. -/
def distance? (scopes : ScopeChain) (name : String) : Option Nat :=
  scopes.findIdx? (·.contains name)

/-- Declare a name in the innermost scope, where it must be new.  The top level is not a scope. -/
def declare (target : Identifier) : ScopeChain → Except ScopeError ScopeChain
  | [] => .ok []
  | innermost :: outer =>
    if innermost.contains target.name then .error ⟨.duplicateDeclaration, target⟩
    else .ok ((target.name :: innermost) :: outer)

/-- Declare several names in turn. -/
def declareAll : List Identifier → ScopeChain → Except ScopeError ScopeChain
  | [], scopes => .ok scopes
  | target :: rest, scopes => do
    let scopes ← declare target scopes
    declareAll rest scopes

/-- Note a reference in front of those already found. -/
def note (scopes : ScopeChain) (ref : RefId) (access : Access) (target : Identifier)
    (found : List Reference) : List Reference :=
  ⟨ref, access, target, distance? scopes target.name⟩ :: found

mutual

/-- The references of an expression, in front of those already found.  `unready` is the local variable
whose initializer the expression belongs to, which it must not read. -/
def ofExpr (scopes : ScopeChain) (unready : Option String) (e : Expr) (found : List Reference) :
    Except ScopeError (List Reference) :=
  match e with
  | .constant _ => .ok found
  | .group inner => ofExpr scopes unready inner found
  | .unary _ _ operand => ofExpr scopes unready operand found
  | .binary _ _ left right => do
    let found ← ofExpr scopes unready left found
    ofExpr scopes unready right found
  | .logical _ left right => do
    let found ← ofExpr scopes unready left found
    ofExpr scopes unready right found
  | .variable ref target =>
    if unready = some target.name then .error ⟨.ownInitializer, target⟩
    else .ok (note scopes ref .read target found)
  | .assign ref target value => do
    let found ← ofExpr scopes unready value found
    return note scopes ref .write target found
  | .call callee _ arguments => do
    let found ← ofExpr scopes unready callee found
    ofExprs scopes unready arguments found

/-- The references of several expressions in order. -/
def ofExprs (scopes : ScopeChain) (unready : Option String) (es : List Expr)
    (found : List Reference) : Except ScopeError (List Reference) :=
  match es with
  | [] => .ok found
  | first :: rest => do
    let found ← ofExpr scopes unready first found
    ofExprs scopes unready rest found

end

/-- The references of an expression that may be absent. -/
def ofExpr? (scopes : ScopeChain) (e : Option Expr) (found : List Reference) :
    Except ScopeError (List Reference) :=
  match e with
  | none => .ok found
  | some e => ofExpr scopes none e found

/-- The open scopes and the references found, latest first. -/
structure Walk where
  scopes : ScopeChain
  found : List Reference

/-- What a local variable's initializer must not read.  At the top level the name means whatever it
meant before. -/
def unready (target : Identifier) : ScopeChain → Option String
  | [] => none
  | _ :: _ => some target.name

mutual

/-- Walk over a statement. -/
def ofStmt (inFunction : Bool) (s : Stmt) (walk : Walk) : Except ScopeError Walk :=
  match s with
  | .expression value => do
    let found ← ofExpr walk.scopes none value walk.found
    return { walk with found }
  | .print _ values => do
    let found ← ofExprs walk.scopes none values walk.found
    return { walk with found }
  | .declare target initializer => do
    let scopes ← declare target walk.scopes
    match initializer with
    | none => return { walk with scopes }
    | some value =>
      let found ← ofExpr scopes (unready target scopes) value walk.found
      return ⟨scopes, found⟩
  | .block body => do
    let inner ← ofStmts inFunction body ⟨[] :: walk.scopes, walk.found⟩
    return { walk with found := inner.found }
  | .branch condition whenTrue whenFalse => do
    let found ← ofExpr walk.scopes none condition walk.found
    let walk ← ofStmt inFunction whenTrue { walk with found }
    ofStmt? inFunction whenFalse walk
  | .whileLoop condition body => do
    let found ← ofExpr walk.scopes none condition walk.found
    ofStmt inFunction body { walk with found }
  | .forLoop initializer condition increment body => do
    let inner ← ofStmt? inFunction initializer ⟨[] :: walk.scopes, walk.found⟩
    let found ← ofExpr? inner.scopes condition inner.found
    let found ← ofExpr? inner.scopes increment found
    let inner ← ofStmt inFunction body { inner with found }
    return { walk with found := inner.found }
  | .function target parameters body => do
    let scopes ← declare target walk.scopes
    let inside ← declareAll parameters ([] :: scopes)
    let inner ← ofStmts true body ⟨inside, walk.found⟩
    return ⟨scopes, inner.found⟩
  | .giveBack line value =>
    if inFunction then do
      let found ← ofExpr? walk.scopes value walk.found
      return { walk with found }
    else .error ⟨.returnOutsideFunction, ⟨"return", line⟩⟩

/-- Walk over statements in order. -/
def ofStmts (inFunction : Bool) (ss : List Stmt) (walk : Walk) : Except ScopeError Walk :=
  match ss with
  | [] => .ok walk
  | first :: rest => do
    let walk ← ofStmt inFunction first walk
    ofStmts inFunction rest walk

/-- Walk over a statement that may be absent. -/
def ofStmt? (inFunction : Bool) (s : Option Stmt) (walk : Walk) : Except ScopeError Walk :=
  match s with
  | none => .ok walk
  | some s => ofStmt inFunction s walk

end

end Resolution

/-- The references of a program in the order of its text, or the first fault. -/
def resolve (program : List Stmt) : Except ScopeError (List Reference) := do
  let walk ← Resolution.ofStmts false program ⟨[], []⟩
  return walk.found.reverse

/-- The recorded distances of references to local variables. -/
structure Distances where
  table : Std.TreeMap RefId Nat := {}

namespace Distances

/-- No distances. -/
def empty : Distances := {}

/-- The distance of a reference, or none when its name is to be looked up globally. -/
def find? (distances : Distances) (ref : RefId) : Option Nat := distances.table[ref]?

/-- Record one reference; a reference without distance leaves no entry. -/
def record (distances : Distances) (reference : Reference) : Distances :=
  match reference.distance? with
  | some distance => ⟨distances.table.insert reference.ref distance⟩
  | none => distances

/-- Recording a reference with a distance is seen under its identity and under no other. -/
theorem find?_record (distances : Distances) (reference : Reference) (ref : RefId) :
    (distances.record reference).find? ref =
      if reference.ref = ref then reference.distance?.or (distances.find? ref)
      else distances.find? ref := by
  unfold record find?
  cases reference.distance? with
  | none => simp
  | some distance =>
    by_cases same : reference.ref = ref <;> simp [Std.TreeMap.getElem?_insert, same]

/-- Record the references of a program. -/
def recordAll (distances : Distances) (references : List Reference) : Distances :=
  references.foldl record distances

end Distances

end ScopedScript

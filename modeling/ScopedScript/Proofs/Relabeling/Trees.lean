import ScopedScript.Proofs.Grammar.References
import ScopedScript.Token
namespace ScopedScript

/-!
# Trees with other identities and other lines

Two texts that differ only in where they stand, or in what was read before them, give the same tree up to
the identities of its references and its lines.  A `Relabeling` says how to get from the one to the other;
`relabel` applies it to a tree and leaves everything else alone.

Relabelings compose, the one that changes nothing changes no tree, and only the identities that a tree
really has matter.
-/

/-- Other identities for references, and other lines. -/
structure Relabeling where
  ref : RefId → RefId
  line : Nat → Nat

namespace Relabeling

/-- Everything stays as it is. -/
def same : Relabeling := ⟨id, id⟩

/-- One relabeling after another. -/
def after (second first : Relabeling) : Relabeling :=
  ⟨second.ref ∘ first.ref, second.line ∘ first.line⟩

/-- The identities stay, and only the lines move. -/
def ofLines (line : Nat → Nat) : Relabeling := ⟨id, line⟩

/-- The lines stay, and only the identities change. -/
def ofRefs (ref : RefId → RefId) : Relabeling := ⟨ref, id⟩

/-- Two relabelings do the same to these identities, and to all lines. -/
def AgreeOn (first second : Relabeling) (refs : List RefId) : Prop :=
  (∀ ref ∈ refs, first.ref ref = second.ref ref) ∧ first.line = second.line

end Relabeling

variable (r second first : Relabeling)

namespace Token

/-- A token on another line. -/
def relabel (token : Token) : Token := ⟨token.kind, r.line token.line⟩

end Token

namespace Identifier

/-- A name on another line. -/
def relabel (target : Identifier) : Identifier := ⟨target.name, r.line target.line⟩

@[simp] theorem name_relabel (target : Identifier) : (target.relabel r).name = target.name := rfl

theorem relabel_same (target : Identifier) : target.relabel .same = target := rfl

theorem relabel_relabel (target : Identifier) :
    (target.relabel first).relabel second = target.relabel (second.after first) := rfl

end Identifier

namespace Expr

mutual

/-- An expression with other identities and lines. -/
def relabel : Expr → Expr
  | .constant value => .constant value
  | .group inner => .group inner.relabel
  | .unary op line operand => .unary op (r.line line) operand.relabel
  | .binary op line left right => .binary op (r.line line) left.relabel right.relabel
  | .logical op left right => .logical op left.relabel right.relabel
  | .variable ref target => .variable (r.ref ref) (target.relabel r)
  | .assign ref target value => .assign (r.ref ref) (target.relabel r) value.relabel
  | .call callee line arguments => .call callee.relabel (r.line line) (relabelAll arguments)

/-- Expressions with other identities and lines. -/
def relabelAll : List Expr → List Expr
  | [] => []
  | first :: rest => first.relabel :: relabelAll rest

end

/-- An expression that may be absent, with other identities and lines. -/
def relabel? (e : Option Expr) : Option Expr := e.map (relabel r)

end Expr

namespace Stmt

mutual

/-- A statement with other identities and lines. -/
def relabel : Stmt → Stmt
  | .expression value => .expression (value.relabel r)
  | .print line values => .print (r.line line) (Expr.relabelAll r values)
  | .declare target initializer => .declare (target.relabel r) (Expr.relabel? r initializer)
  | .block body => .block (relabelAll body)
  | .branch condition whenTrue whenFalse =>
    .branch (condition.relabel r) whenTrue.relabel (relabel? whenFalse)
  | .whileLoop condition body => .whileLoop (condition.relabel r) body.relabel
  | .forLoop initializer condition increment body =>
    .forLoop (relabel? initializer) (Expr.relabel? r condition) (Expr.relabel? r increment) body.relabel
  | .function target parameters body =>
    .function (target.relabel r) (parameters.map (Identifier.relabel r)) (relabelAll body)
  | .giveBack line value => .giveBack (r.line line) (Expr.relabel? r value)

/-- Statements with other identities and lines. -/
def relabelAll : List Stmt → List Stmt
  | [] => []
  | first :: rest => first.relabel :: relabelAll rest

/-- A statement that may be absent, with other identities and lines. -/
def relabel? : Option Stmt → Option Stmt
  | none => none
  | some s => some s.relabel

end

end Stmt

/-! ## Nothing changes -/

namespace Expr

mutual

theorem relabel_same : ∀ e : Expr, e.relabel .same = e
  | .constant _ | .variable _ _ => rfl
  | .group a => by rw [relabel, relabel_same a]
  | .unary _ _ a | .assign _ _ a => by
      rw [relabel, relabel_same a]
      rfl
  | .binary _ _ a b => by
      rw [relabel, relabel_same a, relabel_same b]
      rfl
  | .logical _ a b => by rw [relabel, relabel_same a, relabel_same b]
  | .call callee _ arguments => by
      rw [relabel, relabel_same callee, relabelAll_same arguments]
      rfl

theorem relabelAll_same : ∀ es : List Expr, relabelAll .same es = es
  | [] => rfl
  | first :: rest => by rw [relabelAll, relabel_same first, relabelAll_same rest]

end

theorem relabel?_same (e : Option Expr) : relabel? .same e = e := by
  cases e with
  | none => rfl
  | some e => exact congrArg some (relabel_same e)

end Expr

namespace Stmt

mutual

theorem relabel_same : ∀ s : Stmt, s.relabel .same = s
  | .expression value => by rw [relabel, value.relabel_same]
  | .print _ values => by
      rw [relabel, Expr.relabelAll_same]
      rfl
  | .declare target initializer => by rw [relabel, Expr.relabel?_same, target.relabel_same]
  | .block body => by rw [relabel, relabelAll_same body]
  | .branch condition whenTrue whenFalse => by
      rw [relabel, condition.relabel_same, relabel_same whenTrue, relabel?_same whenFalse]
  | .whileLoop condition body => by rw [relabel, condition.relabel_same, relabel_same body]
  | .forLoop initializer condition increment body => by
      rw [relabel, relabel?_same initializer, Expr.relabel?_same, Expr.relabel?_same,
        relabel_same body]
  | .function target parameters body => by
      rw [relabel, relabelAll_same body, target.relabel_same]
      exact congrArg (Stmt.function target · body) (List.map_id parameters)
  | .giveBack _ value => by
      rw [relabel, Expr.relabel?_same]
      rfl

theorem relabelAll_same : ∀ ss : List Stmt, relabelAll .same ss = ss
  | [] => rfl
  | first :: rest => by rw [relabelAll, relabel_same first, relabelAll_same rest]

theorem relabel?_same : ∀ s : Option Stmt, relabel? .same s = s
  | none => rfl
  | some s => by rw [relabel?, relabel_same s]

end

end Stmt

/-! ## One relabeling after another -/

namespace Expr

mutual

theorem relabel_relabel :
    ∀ e : Expr, (e.relabel first).relabel second = e.relabel (second.after first)
  | .constant _ | .variable _ _ => rfl
  | .group a => by simp only [relabel, relabel_relabel a]
  | .unary _ _ a | .assign _ _ a => by
      simp only [relabel, relabel_relabel a]
      rfl
  | .binary _ _ a b => by
      simp only [relabel, relabel_relabel a, relabel_relabel b]
      rfl
  | .logical _ a b => by simp only [relabel, relabel_relabel a, relabel_relabel b]
  | .call callee _ arguments => by
      simp only [relabel, relabel_relabel callee, relabelAll_relabelAll arguments]
      rfl

theorem relabelAll_relabelAll :
    ∀ es : List Expr, relabelAll second (relabelAll first es) = relabelAll (second.after first) es
  | [] => rfl
  | e :: rest => by simp only [relabelAll, relabel_relabel e, relabelAll_relabelAll rest]

end

theorem relabel?_relabel? (e : Option Expr) :
    relabel? second (relabel? first e) = relabel? (second.after first) e := by
  cases e with
  | none => rfl
  | some e => exact congrArg some (relabel_relabel second first e)

end Expr

namespace Stmt

mutual

theorem relabel_relabel :
    ∀ s : Stmt, (s.relabel first).relabel second = s.relabel (second.after first)
  | .expression value => by simp only [relabel, value.relabel_relabel]
  | .print _ values => by
      simp only [relabel, Expr.relabelAll_relabelAll]
      rfl
  | .declare target initializer => by
      simp only [relabel, Expr.relabel?_relabel?, target.relabel_relabel]
  | .block body => by simp only [relabel, relabelAll_relabelAll body]
  | .branch condition whenTrue whenFalse => by
      simp only [relabel, condition.relabel_relabel, relabel_relabel whenTrue,
        relabel?_relabel? whenFalse]
  | .whileLoop condition body => by
      simp only [relabel, condition.relabel_relabel, relabel_relabel body]
  | .forLoop initializer condition increment body => by
      simp only [relabel, relabel?_relabel? initializer, Expr.relabel?_relabel?,
        relabel_relabel body]
  | .function target parameters body => by
      simp only [relabel, relabelAll_relabelAll body, target.relabel_relabel, List.map_map]
      rfl
  | .giveBack _ value => by
      simp only [relabel, Expr.relabel?_relabel?]
      rfl

theorem relabelAll_relabelAll :
    ∀ ss : List Stmt, relabelAll second (relabelAll first ss) = relabelAll (second.after first) ss
  | [] => rfl
  | s :: rest => by simp only [relabelAll, relabel_relabel s, relabelAll_relabelAll rest]

theorem relabel?_relabel? :
    ∀ s : Option Stmt, relabel? second (relabel? first s) = relabel? (second.after first) s
  | none => rfl
  | some s => by simp only [relabel?, relabel_relabel s]

end

end Stmt

/-! ## Only the identities that are there matter -/

namespace Relabeling.AgreeOn

variable {first second : Relabeling} {refs others : List RefId}

theorem left (agree : first.AgreeOn second (refs ++ others)) : first.AgreeOn second refs :=
  ⟨fun ref member => agree.1 ref (List.mem_append_left others member), agree.2⟩

theorem right (agree : first.AgreeOn second (refs ++ others)) : first.AgreeOn second others :=
  ⟨fun ref member => agree.1 ref (List.mem_append_right refs member), agree.2⟩

theorem identifier (agree : first.AgreeOn second refs) (target : Identifier) :
    target.relabel first = target.relabel second := by
  rw [Identifier.relabel, Identifier.relabel, agree.2]

end Relabeling.AgreeOn

variable {second first}

namespace Expr

mutual

theorem relabel_congr : ∀ e : Expr, first.AgreeOn second e.refs → e.relabel first = e.relabel second
  | .constant _, _ => rfl
  | .variable ref target, agree => by
      rw [relabel, relabel, agree.identifier, agree.1 ref List.mem_cons_self]
  | .group a, agree => by rw [relabel, relabel, relabel_congr a agree]
  | .unary _ _ a, agree => by rw [relabel, relabel, relabel_congr a agree, agree.2]
  | .assign ref target a, agree => by
      rw [relabel, relabel, relabel_congr a agree.left, agree.identifier,
        agree.right.1 ref List.mem_cons_self]
  | .binary _ _ a b, agree => by
      rw [relabel, relabel, relabel_congr a agree.left, relabel_congr b agree.right, agree.2]
  | .logical _ a b, agree => by
      rw [relabel, relabel, relabel_congr a agree.left, relabel_congr b agree.right]
  | .call callee _ arguments, agree => by
      rw [relabel, relabel, relabel_congr callee agree.left, relabelAll_congr arguments agree.right,
        agree.2]

theorem relabelAll_congr :
    ∀ es : List Expr, first.AgreeOn second (refsOf es) → relabelAll first es = relabelAll second es
  | [], _ => rfl
  | e :: rest, agree => by
      rw [relabelAll, relabelAll, relabel_congr e agree.left, relabelAll_congr rest agree.right]

end

theorem relabel?_congr :
    ∀ e : Option Expr, first.AgreeOn second (refs? e) → relabel? first e = relabel? second e
  | none, _ => rfl
  | some e, agree => congrArg some (relabel_congr e agree)

end Expr

namespace Stmt

mutual

theorem relabel_congr : ∀ s : Stmt, first.AgreeOn second s.refs → s.relabel first = s.relabel second
  | .expression value, agree => by rw [relabel, relabel, value.relabel_congr agree]
  | .print _ values, agree => by rw [relabel, relabel, Expr.relabelAll_congr values agree, agree.2]
  | .declare target initializer, agree => by
      rw [relabel, relabel, Expr.relabel?_congr initializer agree, agree.identifier]
  | .block body, agree => by rw [relabel, relabel, relabelAll_congr body agree]
  | .branch condition whenTrue whenFalse, agree => by
      rw [relabel, relabel, condition.relabel_congr agree.left.left,
        relabel_congr whenTrue agree.left.right, relabel?_congr whenFalse agree.right]
  | .whileLoop condition body, agree => by
      rw [relabel, relabel, condition.relabel_congr agree.left, relabel_congr body agree.right]
  | .forLoop initializer condition increment body, agree => by
      rw [relabel, relabel, relabel?_congr initializer agree.left.left.left,
        Expr.relabel?_congr condition agree.left.left.right,
        Expr.relabel?_congr increment agree.left.right, relabel_congr body agree.right]
  | .function target parameters body, agree => by
      rw [relabel, relabel, relabelAll_congr body agree, agree.identifier,
        List.map_congr_left fun parameter _ => agree.identifier parameter]
  | .giveBack _ value, agree => by rw [relabel, relabel, Expr.relabel?_congr value agree, agree.2]

theorem relabelAll_congr :
    ∀ ss : List Stmt, first.AgreeOn second (refsOf ss) → relabelAll first ss = relabelAll second ss
  | [], _ => rfl
  | s :: rest, agree => by
      rw [relabelAll, relabelAll, relabel_congr s agree.left, relabelAll_congr rest agree.right]

theorem relabel?_congr :
    ∀ s : Option Stmt, first.AgreeOn second (refs? s) → relabel? first s = relabel? second s
  | none, _ => rfl
  | some s, agree => by rw [relabel?, relabel?, relabel_congr s agree]

end

end Stmt

end ScopedScript

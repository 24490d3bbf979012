import ScopedScript.Proofs.Grammar.ProgramRules
namespace ScopedScript

/-!
# Lists that are read turn by turn

A rule for a list puts each part in front of those behind it.  A loop has the parts in front already and
appends the next one.  Here are the list rules in the form of loops: each begins behind some parts and answers the
whole list.
-/

namespace Rule

open ScopedScript.Parser

/-- The arguments of a call behind some of them, where another one is due. -/
def argumentsFrom (done : List Expr) (tokens : List Token) (next : RefId) :
    Except SyntaxError (Parsed (List Expr × Nat)) :=
  Parsed.map (fun list => (done ++ list.1, list.2)) <$> argumentList (maxArity - done.length) tokens next

/-- The parameters of a function behind some of them, where another one is due. -/
def parametersFrom (done : List Identifier) (tokens : List Token) (next : RefId) :
    Except SyntaxError (Parsed (List Identifier)) :=
  Parsed.map (done ++ ·) <$> parameterList (maxArity - done.length) tokens next

/-- The expressions of a `print` behind some of them. -/
def valuesFrom (done : List Expr) (tokens : List Token) (next : RefId) : Except SyntaxError (Parsed (List Expr)) :=
  match tokens with
  | ⟨.symbol .comma, _⟩ :: rest => Parsed.map (done ++ ·) <$> printList rest next
  | ⟨.symbol .semicolon, _⟩ :: rest => .ok ⟨done, next, rest⟩
  | tokens => refuse .printEnd tokens

/-- The declarations of a block behind some of them. -/
def declarationsFrom (done : List Stmt) (tokens : List Token) (next : RefId) :
    Except SyntaxError (Parsed (List Stmt)) :=
  Parsed.map (done ++ ·) <$> block tokens next

/-- The declarations of a program behind some of them.  Nothing is left behind a program. -/
def programFrom (done : List Stmt) (tokens : List Token) (next : RefId) : Except SyntaxError (Parsed (List Stmt)) :=
  (fun result => ⟨done ++ result.1, result.2, []⟩) <$> parse tokens next

/-! ## Nothing in front -/

theorem argumentsFrom_nil (tokens : List Token) (next : RefId) :
    argumentsFrom [] tokens next = argumentList maxArity tokens next := by
  unfold argumentsFrom
  cases argumentList maxArity tokens next <;> rfl

theorem parametersFrom_nil (tokens : List Token) (next : RefId) :
    parametersFrom [] tokens next = parameterList maxArity tokens next := by
  unfold parametersFrom
  cases parameterList maxArity tokens next <;> rfl

theorem declarationsFrom_nil (tokens : List Token) (next : RefId) : declarationsFrom [] tokens next = block tokens next := by
  unfold declarationsFrom
  cases block tokens next <;> rfl

theorem programFrom_nil (tokens : List Token) (next : RefId) :
    programFrom [] tokens next = (fun result => ⟨result.1, result.2, []⟩) <$> parse tokens next := rfl

/-! ## Another part -/

/-- One part more in front is one part more read. -/
theorem map_append_cons {α : Type} (done : List α) (value : α) (others : Except SyntaxError (Parsed (List α))) :
    (Parsed.map (done ++ ·) <$> do let list ← others; .ok ⟨value :: list.value, list.next, list.rest⟩) =
      Parsed.map ((done ++ [value]) ++ ·) <$> others := by
  cases others with
  | error _ => rfl
  | ok list => exact congrArg (fun all => Except.ok (Parsed.mk all list.next list.rest)) (List.append_cons done value _)

theorem argumentsFrom_eq (done : List Expr) (tokens : List Token) (next : RefId) :
    argumentsFrom done tokens next = (
      if maxArity ≤ done.length then refuse .tooManyArguments tokens
      else do
        let argument ← expression tokens next
        match argument.rest with
        | ⟨.symbol .comma, _⟩ :: behind => argumentsFrom (done ++ [argument.value]) behind argument.next
        | ⟨.symbol .rightParen, line⟩ :: behind => .ok ⟨(done ++ [argument.value], line), argument.next, behind⟩
        | rest => refuse .argumentsClose rest) := by
  unfold argumentsFrom
  split
  · rename_i full
    rw [Nat.sub_eq_zero_of_le full, argumentList_eq]
    rfl
  · rename_i notFull
    have less : maxArity - done.length = maxArity - (done.length + 1) + 1 := by omega
    rw [less, argumentList_eq]
    dsimp only
    rw [map_bind]
    refine congrArg (expression tokens next >>= ·) (funext fun argument => ?_)
    rcases argument with ⟨value, next', _ | ⟨⟨kind, line⟩, behind⟩⟩
    · rfl
    · cases kind with
      | symbol s =>
          cases s with
          | comma =>
              dsimp only
              rw [List.length_append, List.length_singleton]
              cases argumentList (maxArity - (done.length + 1)) behind next' with
              | error _ => rfl
              | ok others =>
                  exact congrArg (fun all => Except.ok (Parsed.mk (all, others.value.2) others.next others.rest))
                    (List.append_cons done value _)
          | _ => rfl
      | _ => rfl

theorem parametersFrom_eq (done : List Identifier) (tokens : List Token) (next : RefId) :
    parametersFrom done tokens next = (
      if maxArity ≤ done.length then refuse .tooManyParameters tokens
      else do
        let name ← identifier .parameterName tokens next
        match name.rest with
        | ⟨.symbol .comma, _⟩ :: behind => parametersFrom (done ++ [name.value]) behind name.next
        | ⟨.symbol .rightParen, _⟩ :: behind => .ok ⟨done ++ [name.value], name.next, behind⟩
        | rest => refuse .parametersClose rest) := by
  unfold parametersFrom
  split
  · rename_i full
    rw [Nat.sub_eq_zero_of_le full, parameterList_eq]
    rfl
  · rename_i notFull
    have less : maxArity - done.length = maxArity - (done.length + 1) + 1 := by omega
    rw [less, parameterList_eq]
    dsimp only
    rw [map_bind]
    refine congrArg (identifier .parameterName tokens next >>= ·) (funext fun name => ?_)
    rcases name with ⟨value, next', _ | ⟨⟨kind, line⟩, behind⟩⟩
    · rfl
    · cases kind with
      | symbol s =>
          cases s with
          | comma =>
              dsimp only
              rw [List.length_append, List.length_singleton]
              exact map_append_cons done value _
          | _ => rfl
      | _ => rfl

/-- Another expression of a `print` and those behind it. -/
theorem printList_from (tokens : List Token) (next : RefId) (done : List Expr) :
    Parsed.map (done ++ ·) <$> printList tokens next = (do
      let value ← expression tokens next
      valuesFrom (done ++ [value.value]) value.rest value.next) := by
  rw [printList_eq, map_bind]
  refine congrArg (expression tokens next >>= ·) (funext fun value => ?_)
  rcases value with ⟨value, next', _ | ⟨⟨kind, line⟩, behind⟩⟩
  · rfl
  · cases kind with
    | symbol s =>
        cases s with
        | comma => exact map_append_cons done value _
        | _ => rfl
    | _ => rfl

/-- The expressions of a `print` are one, and those behind it. -/
theorem printList_first (tokens : List Token) (next : RefId) :
    printList tokens next = (do
      let value ← expression tokens next
      valuesFrom [value.value] value.rest value.next) := by
  refine Eq.trans ?_ (printList_from tokens next [])
  cases printList tokens next <;> rfl

/-- Another declaration of a block and those behind it. -/
theorem map_declaration_block (done : List Stmt) (tokens : List Token) (next : RefId) :
    (Parsed.map (done ++ ·) <$> do
      let first ← declaration tokens next
      let others ← block first.rest first.next
      .ok ⟨first.value :: others.value, others.next, others.rest⟩) = (do
      let first ← declaration tokens next
      declarationsFrom (done ++ [first.value]) first.rest first.next) := by
  rw [map_bind]
  exact congrArg (declaration tokens next >>= ·) (funext fun first => map_append_cons done first.value _)

theorem declarationsFrom_eq (done : List Stmt) (tokens : List Token) (next : RefId) :
    declarationsFrom done tokens next = (
      match tokens with
      | [] => refuse .blockEnd []
      | ⟨.symbol .rightBrace, _⟩ :: rest => .ok ⟨done, next, rest⟩
      | tokens => do
        let first ← declaration tokens next
        declarationsFrom (done ++ [first.value]) first.rest first.next) := by
  unfold declarationsFrom
  rw [block_eq]
  rcases tokens with _ | ⟨⟨kind, line⟩, rest⟩
  · rfl
  · cases kind with
    | symbol s =>
        cases s with
        | rightBrace => exact congrArg (fun all => Except.ok (Parsed.mk all next rest)) (List.append_nil done)
        | _ => exact map_declaration_block done _ next
    | _ => exact map_declaration_block done _ next

theorem programFrom_eq (done : List Stmt) (tokens : List Token) (next : RefId) :
    programFrom done tokens next = (
      match tokens with
      | [] => .ok ⟨done, next, []⟩
      | tokens => do
        let first ← declaration tokens next
        programFrom (done ++ [first.value]) first.rest first.next) := by
  unfold programFrom
  rw [parse_eq]
  rcases tokens with _ | ⟨token, rest⟩
  · exact congrArg (fun all => Except.ok (Parsed.mk all next [])) (List.append_nil done)
  · dsimp only
    rw [map_bind]
    refine congrArg (declaration (token :: rest) next >>= ·) (funext fun first => ?_)
    cases parse first.rest first.next with
    | error _ => rfl
    | ok others =>
        exact congrArg (fun all => Except.ok (Parsed.mk all others.2 [])) (List.append_cons done first.value _)

end Rule

end ScopedScript

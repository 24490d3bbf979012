import ScopedScript.Syntax.ExpressionParser
namespace ScopedScript

/-!
# A cursor over the tokens

The parser reads lists of tokens and hands on what is left of them.  Seen from a machine it moves a
cursor: it looks at the token under the cursor or at the one just behind, and advances by one.  Here are
these steps, with everything they can do wrong.  An index behind the end of the text is out of range, and so
is the token before the first; a recursion that is given too little fuel is left unfinished.

Every look at a token and every entry of a rule leaves an event, with the place of the cursor at that
time.  The end of the text stands behind the last token, so its index is the number of tokens.
-/

namespace Descent

/-! ## Rules under way -/

/-- The levels of operators between two operands. -/
inductive Level where
  | or | and | equality | comparison | term | factor
  deriving DecidableEq, Repr

/-- The rules that may be under way, and the loops inside of them. -/
inductive Label where
  | programLoop | declaration | statement | parameterLoop | blockLoop | printLoop
  | expression | assignment
  | level (level : Level)
  | levelLoop (level : Level)
  | unary | callLoop | argumentLoop
  deriving DecidableEq, Repr

/-- A rule under way, or one turn of a loop, with the place of the cursor where it began. -/
structure Entry where
  label : Label
  position : Nat
  deriving DecidableEq, Repr

/-- What leaves an event. -/
inductive Action where
  /-- The token with this index is looked at. -/
  | look (index : Nat)
  /-- The first of these entries is new; the others are under way, innermost first. -/
  | enter (active : List Entry)
  deriving DecidableEq, Repr

/-- An action and the place of the cursor. -/
structure Event where
  position : Nat
  action : Action
  deriving DecidableEq, Repr

/-! ## Steps -/

/-- The index of the token to be read next, the next free reference identity, and the events so far,
newest first. -/
structure Cursor where
  position : Nat
  next : RefId
  trace : List Event

/-- How reading may end. -/
inductive Outcome (α : Type) where
  | done (value : α) (cursor : Cursor)
  | refused (error : SyntaxError) (cursor : Cursor)
  /-- There is no token with the index looked at. -/
  | outOfRange
  /-- There was too little fuel. -/
  | unfinished

/-- The value that was read, if reading was done. -/
def Outcome.value? {α : Type} : Outcome α → Option α
  | done value _ => some value
  | _ => none

/-- A part of the parser: it is given the tokens and the rules under way, and moves a cursor. -/
def Parsing (α : Type) : Type := List Token → List Entry → Cursor → Outcome α

namespace Parsing

/-- One part, and another with its value. -/
def andThen {α β : Type} (first : Parsing α) (second : α → Parsing β) : Parsing β :=
  fun tokens active cursor =>
    match first tokens active cursor with
    | .done value moved => second value tokens active moved
    | .refused error moved => .refused error moved
    | .outOfRange => .outOfRange
    | .unfinished => .unfinished

instance : Monad Parsing where
  pure value := fun _ _ cursor => .done value cursor
  bind := andThen

instance : LawfulMonad Parsing := by
  refine LawfulMonad.mk' Parsing (fun part => ?_) (fun _ _ => rfl) (fun first _ _ => ?_)
  · funext tokens active cursor
    change andThen part _ tokens active cursor = _
    unfold andThen
    cases part tokens active cursor <;> rfl
  · funext tokens active cursor
    change andThen (andThen first _) _ tokens active cursor = andThen first _ tokens active cursor
    unfold andThen
    cases first tokens active cursor <;> rfl

end Parsing

/-- A token of the kind that a rule asks for. -/
inductive Wanted where
  | symbol (symbol : Symbol)
  | keyword (keyword : Keyword)
  | name
  deriving DecidableEq, Repr

/-- Whether a token is of the kind asked for. -/
def Wanted.fits : Wanted → TokenKind → Bool
  | symbol wanted, .symbol found => found = wanted
  | keyword wanted, .keyword found => found = wanted
  | name, .identifier _ => true
  | _, _ => false

/-- Look at the token with an index.  There is none at the end of the text. -/
def look (index : Nat) : Parsing (Option Token) := fun tokens _ cursor =>
  if tokens.length < index then .outOfRange
  else .done tokens[index]? { cursor with trace := ⟨cursor.position, .look index⟩ :: cursor.trace }

/-- The token under the cursor. -/
def peek : Parsing (Option Token) := fun tokens active cursor =>
  look cursor.position tokens active cursor

/-- The token just behind the cursor.  The end of the text is never there. -/
def previous : Parsing Token := fun tokens active cursor =>
  match cursor.position with
  | 0 => .outOfRange
  | index + 1 =>
    match look index tokens active cursor with
    | .done (some token) looked => .done token looked
    | _ => .outOfRange

/-- Whether the cursor is at the end of the text. -/
def isAtEnd : Parsing Bool := do
  let found ← peek
  return found.isNone

/-- Whether the token under the cursor is of the kind asked for. -/
def check (wanted : Wanted) : Parsing Bool := do
  if ← isAtEnd then
    return false
  else
    let found ← peek
    return found.any (wanted.fits ·.kind)

/-- Move the cursor, but not past the end of the text. -/
def move : Parsing Unit := do
  if ← isAtEnd then
    return ()
  else
    fun _ _ cursor => .done () { cursor with position := cursor.position + 1 }

/-- Move the cursor over a token. -/
def advance : Parsing Token := do
  move
  previous

/-- Move the cursor over a token of the kind asked for, if there is one. -/
def accept (wanted : Wanted) : Parsing Bool := do
  if ← check wanted then
    let _ ← advance
    return true
  else
    return false

/-- Refuse a token, or the end of the text. -/
def refuseAt {α : Type} (found : Option Token) (complaint : Complaint) : Parsing α :=
  fun _ _ cursor => .refused ⟨complaint, found⟩ cursor

/-- Refuse the token under the cursor. -/
def refuse {α : Type} (complaint : Complaint) : Parsing α := do
  let found ← peek
  refuseAt found complaint

/-- Move the cursor over a token that has to be of the kind asked for. -/
def consume (wanted : Wanted) (complaint : Complaint) : Parsing Token := do
  if ← check wanted then
    advance
  else
    refuse complaint

/-- Read a name. -/
def identifier (complaint : Complaint) : Parsing Identifier := do
  let token ← consume .name complaint
  return ⟨token.kind.lexeme, token.line⟩

/-- A new reference identity. -/
def fresh : Parsing RefId := fun _ _ cursor => .done cursor.next { cursor with next := cursor.next + 1 }

/-- Enter a rule. -/
def enter {α : Type} (label : Label) (body : Parsing α) : Parsing α := fun tokens active cursor =>
  let inside := ⟨label, cursor.position⟩ :: active
  body tokens inside { cursor with trace := ⟨cursor.position, .enter inside⟩ :: cursor.trace }

/-! ## What is asked of a cursor -/

/-- A look is at one of the tokens or at the end of the text.  A rule that is entered while it is under way
has the cursor further on than when it was entered before. -/
def Event.Fine (size : Nat) (event : Event) : Prop :=
  match event.action with
  | .look index => index ≤ size
  | .enter active => active.Pairwise fun newer older =>
      newer.label = older.label → older.position < newer.position

/-- The cursor is not past the end of the text and was never further on than it is, and every event so far
is fine. -/
structure Cursor.Orderly (size : Nat) (cursor : Cursor) : Prop where
  inside : cursor.position ≤ size
  forward : (cursor.position :: cursor.trace.map Event.position).Pairwise fun newer older => older ≤ newer
  fine : ∀ event ∈ cursor.trace, event.Fine size

end Descent

end ScopedScript

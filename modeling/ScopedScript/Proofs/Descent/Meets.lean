import ScopedScript.Proofs.Descent.Cursor
import ScopedScript.Proofs.Grammar.ProgramCompleteness
namespace ScopedScript

/-!
# Parts of the parser against rules of the grammar

A cursor stands at a place when the tokens behind it and those before it are all the tokens.  A part of the
parser meets an answer at a place when, started there, it ends as the answer says: with its value at the place
where its rest begins, or with its error.  An ending leaves no room for anything else, so a part that meets an
answer neither looks out of range nor stays unfinished.

There is one statement for every step of a cursor, and `Meets.bind` for one part after another.
-/

namespace Descent

/-- The tokens that were used up, the last one first, those that are left, and the next free identity. -/
structure Place where
  used : List Token
  rest : List Token
  next : RefId

/-- The cursor stands at the place, and all went well so far. -/
structure Place.Stands (tokens : List Token) (place : Place) (cursor : Cursor) : Prop where
  split : tokens = place.used.reverse ++ place.rest
  position : cursor.position = place.used.length
  next : cursor.next = place.next
  orderly : cursor.Orderly tokens.length

/-- Reading ended as the answer says. -/
inductive EndsAs {α : Type} (tokens : List Token) : Except SyntaxError (Parsed α) → Outcome α → Prop where
  | done {out : Parsed α} {used : List Token} {cursor : Cursor}
      (stands : Place.Stands tokens ⟨used, out.rest, out.next⟩ cursor) :
      EndsAs tokens (.ok out) (.done out.value cursor)
  | refused {error : SyntaxError} {cursor : Cursor} (orderly : cursor.Orderly tokens.length) :
      EndsAs tokens (.error error) (.refused error cursor)

section

variable {α β : Type} {tokens : List Token} {active : List Entry} {place before after : Place}
  {used rest : List Token} {token : Token} {next : RefId} {cursor : Cursor}

/-! ## Cursors -/

namespace Cursor.Orderly

variable {size : Nat}

/-- A fine event may be added. -/
theorem record {action : Action} (orderly : cursor.Orderly size)
    (fine : Event.Fine size ⟨cursor.position, action⟩) :
    Cursor.Orderly size { cursor with trace := ⟨cursor.position, action⟩ :: cursor.trace } := by
  refine ⟨orderly.inside, ?_, ?_⟩
  · refine List.pairwise_cons.mpr ⟨?_, orderly.forward⟩
    intro position among
    rcases List.mem_cons.mp among with rfl | earlier
    · exact Nat.le_refl _
    · exact (List.pairwise_cons.mp orderly.forward).1 position earlier
  · intro event among
    rcases List.mem_cons.mp among with rfl | earlier
    · exact fine
    · exact orderly.fine event earlier

/-- The cursor may move before the end of the text. -/
theorem step (orderly : cursor.Orderly size) (inside : cursor.position < size) :
    Cursor.Orderly size { cursor with position := cursor.position + 1 } := by
  rcases List.pairwise_cons.mp orderly.forward with ⟨newest, sorted⟩
  refine ⟨inside, List.pairwise_cons.mpr ⟨?_, sorted⟩, orderly.fine⟩
  intro position among
  exact Nat.le_succ_of_le (newest position among)

end Cursor.Orderly

namespace Place.Stands

theorem size (stands : place.Stands tokens cursor) :
    tokens.length = place.used.length + place.rest.length := by
  rw [stands.split, List.length_append, List.length_reverse]

/-- The token under the cursor is the first one left. -/
theorem getElem?_position (stands : place.Stands tokens cursor) :
    tokens[cursor.position]? = place.rest.head? := by
  rw [stands.position, stands.split, ← List.length_reverse, List.getElem?_append_right (Nat.le_refl _),
    Nat.sub_self, List.head?_eq_getElem?]

/-- An event that is fine leaves the cursor where it is. -/
theorem record {action : Action} (stands : place.Stands tokens cursor)
    (fine : Event.Fine tokens.length ⟨cursor.position, action⟩) :
    place.Stands tokens { cursor with trace := ⟨cursor.position, action⟩ :: cursor.trace } :=
  ⟨stands.split, stands.position, stands.next, stands.orderly.record fine⟩

end Place.Stands

/-! ## Parts that pass -/

/-- From one place the part comes to another, with a value. -/
def Passes (tokens : List Token) (active : List Entry) (part : Parsing α) (before : Place) (value : α)
    (after : Place) : Prop :=
  ∀ cursor, before.Stands tokens cursor →
    ∃ moved, part tokens active cursor = .done value moved ∧ after.Stands tokens moved

theorem passes_pure (value : α) (place : Place) :
    Passes tokens active (pure value) place value place :=
  fun cursor stands => ⟨cursor, rfl, stands⟩

theorem Passes.bind {middle : Place} {first : Parsing α} {second : α → Parsing β} {value : α} {result : β}
    (passes : Passes tokens active first before value middle)
    (passesToo : Passes tokens active (second value) middle result after) :
    Passes tokens active (first >>= second) before result after := by
  intro cursor stands
  rcases passes cursor stands with ⟨moved, ran, there⟩
  rcases passesToo moved there with ⟨movedToo, ranToo, thereToo⟩
  refine ⟨movedToo, ?_, thereToo⟩
  change Parsing.andThen first second tokens active cursor = _
  rw [Parsing.andThen, ran]
  exact ranToo

/-- Every look at a token, or at the end of the text, is in range. -/
theorem passes_look {index : Nat} (inRange : index ≤ tokens.length) :
    Passes tokens active (look index) place tokens[index]? place := by
  intro cursor stands
  refine ⟨_, if_neg (Nat.not_lt.mpr inRange), stands.record ?_⟩
  exact inRange

theorem passes_peek : Passes tokens active peek place place.rest.head? place := by
  intro cursor stands
  rw [← stands.getElem?_position]
  exact passes_look stands.orderly.inside cursor stands

/-- There is a token behind the cursor once one was used up. -/
theorem passes_previous :
    Passes tokens active previous ⟨token :: used, rest, next⟩ token ⟨token :: used, rest, next⟩ := by
  intro cursor stands
  have behind : cursor.position = used.length + 1 := stands.position
  have inRange : used.length ≤ tokens.length := by
    have := stands.orderly.inside
    omega
  have found : tokens[used.length]? = some token := by
    rw [stands.split, List.reverse_cons, List.append_assoc, ← List.length_reverse,
      List.getElem?_append_right (Nat.le_refl _), Nat.sub_self]
    rfl
  rcases passes_look inRange cursor stands with ⟨looked, ran, there⟩
  refine ⟨looked, ?_, there⟩
  unfold previous
  rw [behind]
  dsimp only
  rw [ran, found]

theorem passes_isAtEnd : Passes tokens active isAtEnd place place.rest.isEmpty place := by
  have passes : Passes tokens active isAtEnd place place.rest.head?.isNone place :=
    passes_peek.bind (passes_pure _ _)
  have same : place.rest.head?.isNone = place.rest.isEmpty := by cases place.rest <;> rfl
  rwa [same] at passes

theorem passes_move : Passes tokens active move ⟨used, token :: rest, next⟩ () ⟨token :: used, rest, next⟩ := by
  refine passes_isAtEnd.bind fun cursor stands => ⟨_, rfl, ?_, ?_, stands.next, stands.orderly.step ?_⟩
  · rw [stands.split, List.reverse_cons, List.append_assoc]
    rfl
  · exact congrArg (· + 1) stands.position
  · rw [stands.position, stands.size]
    exact Nat.lt_add_of_pos_right (Nat.succ_pos _)

theorem passes_advance :
    Passes tokens active advance ⟨used, token :: rest, next⟩ token ⟨token :: used, rest, next⟩ :=
  passes_move.bind passes_previous

theorem passes_fresh : Passes tokens active fresh ⟨used, rest, next⟩ next ⟨used, rest, next + 1⟩ := by
  intro cursor stands
  refine ⟨_, congrArg (Outcome.done · _) stands.next, stands.split, stands.position, ?_, ?_⟩
  · exact congrArg (· + 1) stands.next
  · exact ⟨stands.orderly.inside, stands.orderly.forward, stands.orderly.fine⟩

/-! ## Parts that meet an answer -/

/-- From a place the part ends as the answer says. -/
def Meets (tokens : List Token) (active : List Entry) (part : Parsing α) (place : Place)
    (answer : Except SyntaxError (Parsed α)) : Prop :=
  ∀ cursor, place.Stands tokens cursor → EndsAs tokens answer (part tokens active cursor)

theorem meets_pure (value : α) : Meets tokens active (pure value) place (.ok ⟨value, place.next, place.rest⟩) :=
  fun _ stands => .done stands

theorem meets_refuseAt (found : Option Token) (complaint : Complaint) :
    Meets tokens active (@refuseAt α found complaint) place (.error ⟨complaint, found⟩) :=
  fun _ stands => .refused stands.orderly

theorem Passes.meets_bind {first : Parsing α} {second : α → Parsing β} {value : α}
    {answer : Except SyntaxError (Parsed β)} (passes : Passes tokens active first before value after)
    (meets : Meets tokens active (second value) after answer) :
    Meets tokens active (first >>= second) before answer := by
  intro cursor stands
  rcases passes cursor stands with ⟨moved, ran, there⟩
  change EndsAs tokens answer (Parsing.andThen first second tokens active cursor)
  rw [Parsing.andThen, ran]
  exact meets moved there

/-- One part after another meets one answer after another. -/
theorem Meets.bind {first : Parsing α} {second : α → Parsing β} {answer : Except SyntaxError (Parsed α)}
    {plain : Parsed α → Except SyntaxError (Parsed β)} (meets : Meets tokens active first place answer)
    (continues : ∀ out used, answer = .ok out →
      Meets tokens active (second out.value) ⟨used, out.rest, out.next⟩ (plain out)) :
    Meets tokens active (first >>= second) place (answer >>= plain) := by
  intro cursor stands
  change EndsAs tokens _ (Parsing.andThen first second tokens active cursor)
  rw [Parsing.andThen]
  have ends := meets cursor stands
  generalize first tokens active cursor = outcome at ends
  cases ends with
  | refused orderly => exact .refused orderly
  | done there => exact continues _ _ rfl _ there

/-- Something else may be made of the value. -/
theorem Meets.make {part : Parsing α} {answer : Except SyntaxError (Parsed α)} (f : α → β)
    (meets : Meets tokens active part place answer) :
    Meets tokens active (do let value ← part; return f value) place
      (answer >>= fun out => .ok ⟨f out.value, out.next, out.rest⟩) :=
  meets.bind fun _ _ _ => meets_pure _

theorem meets_refuse (complaint : Complaint) :
    Meets tokens active (@refuse α complaint) place (Parser.refuse complaint place.rest) :=
  passes_peek.meets_bind (meets_refuseAt _ _)

/-! ## One token of a kind -/

namespace Wanted

/-- Whether a token of the kind asked for comes next. -/
def comesNext (wanted : Wanted) (rest : List Token) : Bool := rest.head?.any (wanted.fits ·.kind)

/-- A token of the kind asked for comes next, or none does. -/
theorem comesNext_or (wanted : Wanted) (rest : List Token) :
    (∃ token behind, rest = token :: behind ∧ wanted.fits token.kind = true) ∨ wanted.comesNext rest = false := by
  rcases rest with _ | ⟨token, behind⟩
  · exact .inr rfl
  · cases fits : wanted.fits token.kind with
    | true => exact .inl ⟨token, behind, rfl, fits⟩
    | false => exact .inr fits

theorem eq_symbol {wanted : Symbol} {kind : TokenKind} (fits : (symbol wanted).fits kind = true) :
    kind = .symbol wanted := by
  cases kind with
  | symbol found => exact congrArg TokenKind.symbol (of_decide_eq_true fits)
  | _ => cases fits

theorem eq_keyword {wanted : Keyword} {kind : TokenKind} (fits : (keyword wanted).fits kind = true) :
    kind = .keyword wanted := by
  cases kind with
  | keyword found => exact congrArg TokenKind.keyword (of_decide_eq_true fits)
  | _ => cases fits

theorem fits_symbol (wanted : Symbol) : (symbol wanted).fits (.symbol wanted) = true := decide_eq_true rfl

theorem exists_identifier {kind : TokenKind} (fits : name.fits kind = true) :
    ∃ letters, kind = .identifier letters := by
  cases kind with
  | identifier letters => exact ⟨letters, rfl⟩
  | _ => cases fits

end Wanted

theorem expect_of_misses {wanted : Symbol} (complaint : Complaint)
    (misses : (Wanted.symbol wanted).comesNext rest = false) (next : RefId) :
    Rule.expect wanted complaint rest next = Parser.refuse complaint rest := by
  rw [Rule.expect_eq]
  split
  · exact if_neg (of_decide_eq_false misses)
  · rfl

theorem identifier_of_misses (complaint : Complaint) (misses : Wanted.name.comesNext rest = false) (next : RefId) :
    Rule.identifier complaint rest next = Parser.refuse complaint rest := by
  rw [Rule.identifier_eq]
  split
  · cases misses
  · rfl

section

variable {wanted : Wanted} {yes no : Parsing α} {answer : Except SyntaxError (Parsed α)}

theorem passes_check (wanted : Wanted) :
    Passes tokens active (check wanted) place (wanted.comesNext place.rest) place := by
  refine passes_isAtEnd.bind ?_
  rcases place with ⟨used, _ | ⟨token, rest⟩, next⟩
  · exact passes_pure _ _
  · exact passes_peek.bind (passes_pure _ _)

theorem passes_accept (fits : wanted.fits token.kind = true) :
    Passes tokens active (accept wanted) ⟨used, token :: rest, next⟩ true ⟨token :: used, rest, next⟩ := by
  refine (passes_check wanted).bind ?_
  exact (if_pos fits).symm ▸ passes_advance.bind (passes_pure _ _)

theorem passes_accept_of_misses (misses : wanted.comesNext place.rest = false) :
    Passes tokens active (accept wanted) place false place := by
  refine (passes_check wanted).bind ?_
  exact (if_neg (Bool.eq_false_iff.mp misses)).symm ▸ passes_pure _ _

/-- After a check the part goes on at the same place. -/
theorem meets_check (hit : ∀ token behind, rest = token :: behind → wanted.fits token.kind = true →
      Meets tokens active yes ⟨used, rest, next⟩ answer)
    (miss : wanted.comesNext rest = false → Meets tokens active no ⟨used, rest, next⟩ answer) :
    Meets tokens active (do if ← check wanted then yes else no) ⟨used, rest, next⟩ answer := by
  refine (passes_check wanted).meets_bind ?_
  rcases wanted.comesNext_or rest with ⟨token, behind, rfl, fits⟩ | misses
  · exact (if_pos fits).symm ▸ hit token behind rfl fits
  · exact (if_neg (Bool.eq_false_iff.mp misses)).symm ▸ miss misses

/-- A token of the kind asked for is used up, and otherwise the part goes on at the same place. -/
theorem meets_accept (hit : ∀ token behind, rest = token :: behind → wanted.fits token.kind = true →
      Meets tokens active yes ⟨token :: used, behind, next⟩ answer)
    (miss : wanted.comesNext rest = false → Meets tokens active no ⟨used, rest, next⟩ answer) :
    Meets tokens active (do if ← accept wanted then yes else no) ⟨used, rest, next⟩ answer := by
  rcases wanted.comesNext_or rest with ⟨token, behind, rfl, fits⟩ | misses
  · exact (passes_accept fits).meets_bind (hit token behind rfl fits)
  · exact (passes_accept_of_misses misses).meets_bind (miss misses)

theorem meets_acceptSymbol {s : Symbol} (hit : ∀ line behind, rest = ⟨.symbol s, line⟩ :: behind →
      Meets tokens active yes ⟨⟨.symbol s, line⟩ :: used, behind, next⟩ answer)
    (miss : (Wanted.symbol s).comesNext rest = false → Meets tokens active no ⟨used, rest, next⟩ answer) :
    Meets tokens active (do if ← accept (.symbol s) then yes else no) ⟨used, rest, next⟩ answer := by
  refine meets_accept (fun token behind follows fits => ?_) miss
  rcases token with ⟨kind, line⟩
  cases Wanted.eq_symbol fits
  exact hit line behind follows

theorem meets_acceptKeyword {k : Keyword} (hit : ∀ line behind, rest = ⟨.keyword k, line⟩ :: behind →
      Meets tokens active yes ⟨⟨.keyword k, line⟩ :: used, behind, next⟩ answer)
    (miss : (Wanted.keyword k).comesNext rest = false → Meets tokens active no ⟨used, rest, next⟩ answer) :
    Meets tokens active (do if ← accept (.keyword k) then yes else no) ⟨used, rest, next⟩ answer := by
  refine meets_accept (fun token behind follows fits => ?_) miss
  rcases token with ⟨kind, line⟩
  cases Wanted.eq_keyword fits
  exact hit line behind follows

theorem meets_checkSymbol {s : Symbol} (hit : ∀ line behind, rest = ⟨.symbol s, line⟩ :: behind →
      Meets tokens active yes ⟨used, rest, next⟩ answer)
    (miss : (Wanted.symbol s).comesNext rest = false → Meets tokens active no ⟨used, rest, next⟩ answer) :
    Meets tokens active (do if ← check (.symbol s) then yes else no) ⟨used, rest, next⟩ answer := by
  refine meets_check (fun token behind follows fits => ?_) miss
  rcases token with ⟨kind, line⟩
  cases Wanted.eq_symbol fits
  exact hit line behind follows

end

theorem passes_consume {wanted : Wanted} (complaint : Complaint) (fits : wanted.fits token.kind = true) :
    Passes tokens active (consume wanted complaint) ⟨used, token :: rest, next⟩ token
      ⟨token :: used, rest, next⟩ :=
  (passes_check wanted).bind ((if_pos fits).symm ▸ passes_advance)

/-- A token that has to be of a kind is used up, or it is refused. -/
theorem meets_consume_or {wanted : Wanted} (complaint : Complaint) {second : Token → Parsing α}
    {answer : Except SyntaxError (Parsed α)}
    (hit : ∀ token behind, rest = token :: behind → wanted.fits token.kind = true →
      Meets tokens active (second token) ⟨token :: used, behind, next⟩ answer)
    (miss : wanted.comesNext rest = false → answer = Parser.refuse complaint rest) :
    Meets tokens active (consume wanted complaint >>= second) ⟨used, rest, next⟩ answer := by
  rcases wanted.comesNext_or rest with ⟨token, behind, rfl, fits⟩ | misses
  · exact (passes_consume complaint fits).meets_bind (hit token behind rfl fits)
  · let refusal : Except SyntaxError (Parsed Token) := Parser.refuse complaint rest
    have refused : Meets tokens active (consume wanted complaint) ⟨used, rest, next⟩ refusal :=
      (passes_check wanted).meets_bind ((if_neg (Bool.eq_false_iff.mp misses)).symm ▸ meets_refuse complaint)
    rw [miss misses]
    change Meets tokens active (consume wanted complaint >>= second) _
      (refusal >>= fun _ => Parser.refuse complaint rest)
    exact refused.bind nofun

/-- A symbol that has to stand there is used up, or what stands there is refused. -/
theorem meets_consumeSymbol_or {s : Symbol} (complaint : Complaint) {second : Token → Parsing α}
    {answer : Except SyntaxError (Parsed α)}
    (hit : ∀ line behind, rest = ⟨.symbol s, line⟩ :: behind →
      Meets tokens active (second ⟨.symbol s, line⟩) ⟨⟨.symbol s, line⟩ :: used, behind, next⟩ answer)
    (miss : (Wanted.symbol s).comesNext rest = false → answer = Parser.refuse complaint rest) :
    Meets tokens active (consume (.symbol s) complaint >>= second) ⟨used, rest, next⟩ answer := by
  refine meets_consume_or complaint (fun token behind follows fits => ?_) miss
  rcases token with ⟨kind, line⟩
  cases Wanted.eq_symbol fits
  exact hit line behind follows

/-- A symbol that has to stand there is what the grammar expects. -/
theorem meets_consume {s : Symbol} {complaint : Complaint} {second : Token → Parsing α}
    {plain : Parsed Nat → Except SyntaxError (Parsed α)}
    (continues : ∀ line behind, rest = ⟨.symbol s, line⟩ :: behind →
      Meets tokens active (second ⟨.symbol s, line⟩) ⟨⟨.symbol s, line⟩ :: used, behind, next⟩
        (plain ⟨line, next, behind⟩)) :
    Meets tokens active (consume (.symbol s) complaint >>= second) ⟨used, rest, next⟩
      (Rule.expect s complaint rest next >>= plain) := by
  refine meets_consumeSymbol_or complaint (fun line behind follows => ?_) fun misses => ?_
  · subst follows
    rw [Rule.expect_symbol]
    exact continues line behind rfl
  · rw [expect_of_misses complaint misses]
    rfl

/-- Behind an element of a list stands a comma and another element, or the symbol that closes the list. -/
theorem meets_separator {close : Symbol} {complaint : Complaint} {more : Parsing α} {finish : Token → Parsing α}
    {answer : Except SyntaxError (Parsed α)}
    (another : ∀ line behind, rest = ⟨.symbol .comma, line⟩ :: behind →
      Meets tokens active more ⟨⟨.symbol .comma, line⟩ :: used, behind, next⟩ answer)
    (closed : ∀ line behind, rest = ⟨.symbol close, line⟩ :: behind →
      Meets tokens active (finish ⟨.symbol close, line⟩) ⟨⟨.symbol close, line⟩ :: used, behind, next⟩ answer)
    (neither : (Wanted.symbol .comma).comesNext rest = false → (Wanted.symbol close).comesNext rest = false →
      answer = Parser.refuse complaint rest) :
    Meets tokens active (do
        if ← accept (.symbol .comma) then
          more
        else
          let token ← consume (.symbol close) complaint
          finish token)
      ⟨used, rest, next⟩ answer :=
  meets_acceptSymbol another fun notComma => meets_consumeSymbol_or complaint closed (neither notComma)

/-- A name is read as the grammar reads it. -/
theorem meets_identifier (complaint : Complaint) : Meets tokens active (identifier complaint) ⟨used, rest, next⟩
    (Rule.identifier complaint rest next) := by
  refine meets_consume_or complaint (fun token behind follows fits => ?_) fun misses => ?_
  · rcases token with ⟨kind, line⟩
    rcases Wanted.exists_identifier fits with ⟨letters, rfl⟩
    subst follows
    rw [Rule.identifier_name]
    exact meets_pure _
  · exact identifier_of_misses complaint misses next

end

end Descent

end ScopedScript

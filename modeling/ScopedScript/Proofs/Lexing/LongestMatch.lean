import ScopedScript.Proofs.Lexing.Joining
import ScopedScript.Proofs.Number.Numerals
namespace ScopedScript

/-!
# The longest match

The grammar of the tokens says which texts are a token or a gap, each on its own and without a look at what
stands behind it.  `Lexes` reads a text with that grammar alone: at each position it takes the longest
beginning that has a form, and where no beginning has one it reports a fault.

The scan yields exactly what `Lexes` allows.  The main step compares the cut of a text with the forms of its
beginnings.  A beginning that has a form is never cut short, and the cut is longer only when it is itself
something with a form.
-/

namespace Lexer

/-! ## The grammar -/

/-- A letter or an underscore, and then letters, digits and underscores. -/
inductive IsWord : List Char → Prop where
  | word {first : Char} {others : List Char} (start : first.isAlpha ∨ first = '_')
      (parts : ∀ c ∈ others, c.isAlphanum ∨ c = '_') : IsWord (first :: others)

/-- The texts that are a piece, whatever stands around them. -/
inductive Piece.Form : Piece → List Char → Prop where
  | blank {c : Char} (isBlank : c ∈ [' ', '\t', '\r', '\n']) : Form gap [c]
  | comment {body : List Char} (oneLine : '\n' ∉ body) : Form gap ('/' :: '/' :: body)
  | symbol (s : Symbol) : Form (token (.symbol s)) s.text.toList
  | keyword (k : Keyword) : Form (token (.keyword k)) k.text.toList
  | identifier {name : List Char} (word : IsWord name) (free : ∀ k : Keyword, k.text.toList ≠ name) :
      Form (token (.identifier (String.ofList name))) name
  | number {numeral : List Char} {q : ℚ} (digits : Numeral numeral q) :
      Form (token (.number (String.ofList numeral))) numeral
  | string {body : List Char} (closed : '"' ∉ body) :
      Form (token (.string (String.ofList body))) ('"' :: (body ++ ['"']))

/-- A beginning of a text that has a form, with no longer one that has a form too. -/
structure Longest (piece : Piece) (taken rest : List Char) : Prop where
  form : piece.Form taken
  longest : ∀ {other : Piece} {beginning more : List Char}, other.Form beginning →
    beginning ++ more = taken ++ rest → beginning.length ≤ taken.length

/-- A text without a beginning that has a form. -/
def Formless (text : List Char) : Prop :=
  ∀ (piece : Piece) (beginning more : List Char), text = beginning ++ more → ¬ piece.Form beginning

/-- The literal that a token stands for: a string without its quotes, or the double nearest to what a numeral
denotes. -/
inductive HasLiteral : TokenKind → Option TokenLiteral → Prop where
  | symbol (s : Symbol) : HasLiteral (.symbol s) none
  | keyword (k : Keyword) : HasLiteral (.keyword k) none
  | identifier (name : String) : HasLiteral (.identifier name) none
  | number {numeral : String} {q : ℚ} {x : Float} (digits : Numeral numeral.toList q)
      (nearest : Binary64.IsNearest x q) : HasLiteral (.number numeral) (some (.number x))
  | string (body : String) : HasLiteral (.string body) (some (.text body))

/-- The items that the grammar yields for a text that begins on the given line. -/
inductive Lexes : Nat → List Char → List ScanItem → Prop where
  | finish {line : Nat} : Lexes line [] [.finish line]
  | gap {line : Nat} {taken rest : List Char} {found : List ScanItem} (longest : Longest .gap taken rest)
      (others : Lexes (line + taken.count '\n') rest found) : Lexes line (taken ++ rest) found
  | token {line : Nat} {kind : TokenKind} {taken rest : List Char} {found : List ScanItem}
      (longest : Longest (.token kind) taken rest) (literal : HasLiteral kind kind.literal?)
      (others : Lexes (line + taken.count '\n') rest found) :
      Lexes line (taken ++ rest) (.token ⟨kind, line + taken.count '\n'⟩ :: found)
  | unterminated {line : Nat} {body : List Char} (formless : Formless ('"' :: body)) :
      Lexes line ('"' :: body) [.fault .unterminated (line + body.count '\n'),
        .finish (line + body.count '\n')]
  | unexpected {line : Nat} {c : Char} {rest : List Char} {found : List ScanItem}
      (formless : Formless (c :: rest)) (noQuote : c ≠ '"') (others : Lexes line rest found) :
      Lexes line (c :: rest) (.fault (.unexpected c) line :: found)

/-! ## What is cut has a form -/

theorem isBlank_iff {c : Char} : isBlank c = true ↔ c ∈ [' ', '\t', '\r', '\n'] := by
  simp [isBlank, or_comm, or_assoc, or_left_comm]

theorem isWordStart_iff {c : Char} : isWordStart c = true ↔ c.isAlpha ∨ c = '_' := by
  rw [isWordStart, Bool.or_eq_true, decide_eq_true_iff]

theorem isWordPart_iff {c : Char} : isWordPart c = true ↔ c.isAlphanum ∨ c = '_' := by
  rw [isWordPart, Bool.or_eq_true, decide_eq_true_iff]

theorem isWord_of_parts {first : Char} {others : List Char} (start : isWordStart first)
    (parts : others.all isWordPart) : IsWord (first :: others) :=
  .word (isWordStart_iff.mp start) fun c isPart => isWordPart_iff.mp (List.all_eq_true.mp parts c isPart)

/-- A word is the reserved word that it spells, or a name. -/
theorem form_ofWord {word : List Char} (isWord : IsWord word) :
    Piece.Form (.token (.ofWord (String.ofList word))) word := by
  unfold TokenKind.ofWord
  cases found : Keyword.ofText? (String.ofList word) with
  | some k =>
      have spelled : k.text = String.ofList word := by simpa using List.find?_some found
      have form := Piece.Form.keyword k
      rwa [spelled, String.toList_ofList] at form
  | none =>
      refine .identifier isWord fun k spelled => ?_
      have missed := List.find?_eq_none.mp found k (by cases k <;> decide)
      rw [← spelled, String.ofList_toList] at missed
      exact missed (beq_self_eq_true _)

/-- The digits that are cut are a numeral. -/
theorem numeral_of_cut {first : Char} (isDigit : first.isDigit) (rest : List Char) :
    ∃ q, Numeral (first :: (rest.takeWhile Char.isDigit ++ Cut.fraction (rest.dropWhile Char.isDigit))) q := by
  have row : ∀ c ∈ first :: rest.takeWhile Char.isDigit, c.isDigit :=
    List.forall_mem_cons.mpr ⟨isDigit, fun c inside => List.mem_takeWhile_imp inside⟩
  have written : first :: rest.takeWhile Char.isDigit ≠ [] := List.cons_ne_nil _ _
  rw [← List.cons_append]
  generalize first :: rest.takeWhile Char.isDigit = digits at *
  fun_cases Cut.fraction (rest.dropWhile Char.isDigit) with
  | case1 digit behind digitBehind =>
      refine ⟨_, .fraction written row (List.cons_ne_nil digit _) ?_⟩
      exact List.forall_mem_cons.mpr ⟨digitBehind, fun c inside => List.mem_takeWhile_imp inside⟩
  | case2 | case3 =>
      rw [List.append_nil]
      exact ⟨_, .whole written row⟩

/-- If the cut is a token, its lexeme has the form of that token. -/
def Cut.Spelled (next : Cut) : Prop :=
  ∀ kind, next.piece = .token kind → Piece.Form (.token kind) kind.lexeme.toList

theorem symbol_spelled (s : Symbol) : (Cut.symbol s).Spelled := by
  rintro _ ⟨⟩
  exact .symbol s

theorem operator_spelled (plain withEqual : Symbol) (rest : List Char) :
    (Cut.operator plain withEqual rest).Spelled := by
  fun_cases Cut.operator plain withEqual rest with
  | case1 =>
      rintro _ ⟨⟩
      exact .symbol withEqual
  | case2 => exact symbol_spelled plain

theorem slashOrComment_spelled (rest : List Char) : (Cut.slashOrComment rest).Spelled := by
  fun_cases Cut.slashOrComment rest with
  | case1 => rintro _ ⟨⟩
  | case2 => exact symbol_spelled .slash

theorem string_spelled (rest : List Char) : (Cut.string rest).Spelled := by
  intro kind
  simp only [Cut.string]
  split
  next => rintro ⟨⟩
  next =>
    rintro ⟨⟩
    rw [toList_lexeme_string]
    exact .string fun inside => by simpa using List.mem_takeWhile_imp inside

theorem number_spelled {first : Char} (isDigit : first.isDigit) (rest : List Char) :
    (Cut.number first rest).Spelled := by
  obtain ⟨q, numeral⟩ := numeral_of_cut isDigit rest
  rintro _ ⟨⟩
  rw [TokenKind.lexeme, String.toList_ofList]
  exact .number numeral

theorem word_spelled {first : Char} (start : isWordStart first) (rest : List Char) :
    (Cut.word first rest).Spelled := by
  rintro _ ⟨⟩
  rw [lexeme_ofWord, String.toList_ofList]
  exact form_ofWord (isWord_of_parts start (List.all_takeWhile ..))

theorem cut_spelled (first : Char) (rest : List Char) : (cut first rest).Spelled := by
  unfold cut
  split
  next => exact nofun
  split
  next isDigit => exact number_spelled isDigit rest
  split
  next start => exact word_spelled start rest
  split
  all_goals first
    | exact symbol_spelled _
    | exact operator_spelled _ _ rest
    | exact slashOrComment_spelled rest
    | exact string_spelled rest
    | exact nofun

/-- Whether a piece is a fault. -/
def Piece.isFault : Piece → Bool
  | fault _ => true
  | _ => false

/-- What is cut has a form of its own, unless it is a fault. -/
theorem form_cut {first : Char} {rest : List Char} (noFault : (cut first rest).piece.isFault = false) :
    (cut first rest).piece.Form (first :: rest.take (cut first rest).extra) := by
  have takes := cut_fits first rest
  have spelled := cut_spelled first rest
  unfold Cut.Fits at takes
  unfold Cut.Spelled at spelled
  generalize (cut first rest).piece = piece at *
  generalize first :: rest.take (cut first rest).extra = taken at *
  generalize rest.drop (cut first rest).extra = left at *
  cases takes with
  | blank isBlank => exact .blank (isBlank_iff.mp isBlank)
  | comment oneLine => exact .comment oneLine
  | token kind => exact spelled kind rfl
  | unexpected | unterminated => cases noFault

/-! ## What has a form is not cut short -/

/-- The cut takes the given number of characters or more, and is no fault.  If it takes just so many, it is the
given piece. -/
structure Cut.Reaches (next : Cut) (piece : Piece) (length : Nat) : Prop where
  atLeast : length ≤ next.extra
  exact : next.extra = length → next.piece = piece
  noFault : next.piece.isFault = false

theorem Cut.Reaches.same {piece : Piece} {length : Nat} (noFault : piece.isFault = false) :
    Cut.Reaches ⟨piece, length⟩ piece length :=
  ⟨le_rfl, fun _ => rfl, noFault⟩

theorem Cut.Reaches.beyond {next : Cut} {piece : Piece} {length : Nat} (noFault : next.piece.isFault = false)
    (further : length < next.extra) : next.Reaches piece length :=
  ⟨further.le, fun short => absurd short further.ne', noFault⟩

/-- What goes on behind the given characters is longer, or else nothing goes on. -/
theorem Cut.Reaches.append (piece : List Char → Piece) (noFault : ∀ text, (piece text).isFault = false)
    (rest further : List Char) :
    Cut.Reaches ⟨piece (rest ++ further), (rest ++ further).length⟩ (piece rest) rest.length := by
  refine ⟨?_, fun exact => ?_, noFault _⟩
  · rw [List.length_append]
    exact Nat.le_add_right _ _
  · rw [List.length_append, Nat.add_eq_left, List.length_eq_zero_iff] at exact
    rw [exact, List.append_nil]

theorem operator_reaches (plain withEqual : Symbol) (more : List Char) :
    (Cut.operator plain withEqual more).Reaches (.token (.symbol plain)) 0 := by
  fun_cases Cut.operator plain withEqual more with
  | case1 => exact .beyond rfl Nat.one_pos
  | case2 => exact .same rfl

theorem slash_reaches (more : List Char) :
    (Cut.slashOrComment more).Reaches (.token (.symbol .slash)) 0 := by
  fun_cases Cut.slashOrComment more with
  | case1 => exact .beyond rfl (Nat.add_pos_left Nat.one_pos _)
  | case2 => exact .same rfl

theorem symbol_reaches (s : Symbol) {first : Char} {rest : List Char} (text : s.text.toList = first :: rest)
    (more : List Char) : (cut first (rest ++ more)).Reaches (.token (.symbol s)) rest.length := by
  cases s <;> simp only [Symbol.text, String.reduceToList, List.cons.injEq] at text <;>
    obtain ⟨rfl, rfl⟩ := text
  all_goals first
    | exact .same rfl
    | exact operator_reaches _ _ more
    | exact slash_reaches more

theorem blank_reaches {c : Char} (blank : isBlank c = true) (more : List Char) :
    (cut c more).Reaches .gap 0 := by
  unfold cut
  rw [if_pos blank]
  exact .same rfl

theorem comment_reaches {body : List Char} (oneLine : '\n' ∉ body) (more : List Char) :
    (cut '/' ('/' :: body ++ more)).Reaches .gap ('/' :: body).length := by
  have inside : ∀ c ∈ body, decide (c ≠ '\n') = true := by
    intro c inBody
    rw [decide_eq_true_iff]
    exact ne_of_mem_of_not_mem inBody oneLine
  have taken : (cut '/' ('/' :: body ++ more)).extra =
      1 + (body ++ more.takeWhile (· ≠ '\n')).length := by
    rw [← List.takeWhile_append_of_pos inside]
    rfl
  refine ⟨?_, fun _ => rfl, rfl⟩
  rw [taken, List.length_append, List.length_cons]
  omega

theorem not_isBlank_of {p : Char → Bool} (others : [' ', '\t', '\r', '\n'].all (fun c => !p c)) {c : Char}
    (holds : p c) : isBlank c = false := by
  rw [← Bool.not_eq_true]
  intro blank
  have := List.all_eq_true.mp others c (isBlank_iff.mp blank)
  rw [holds] at this
  cases this

/-- Digits are cut as a number. -/
theorem cut_of_isDigit {first : Char} (isDigit : first.isDigit) (rest : List Char) :
    cut first rest = .number first rest := by
  have notBlank : isBlank first = false := not_isBlank_of (by decide) isDigit
  unfold cut
  rw [notBlank, isDigit]
  rfl

theorem not_isDigit_of_isWordStart {c : Char} (start : isWordStart c) : c.isDigit = false := by
  rcases isWordStart_iff.mp start with letter | rfl
  · simp only [Char.isAlpha, Char.isUpper, Char.isLower, Bool.or_eq_true, Bool.and_eq_true,
      decide_eq_true_eq, UInt32.le_iff_toNat_le, ge_iff_le] at letter
    rw [← Bool.not_eq_true]
    intro digit
    simp only [Char.isDigit, Bool.and_eq_true, decide_eq_true_eq, UInt32.le_iff_toNat_le, ge_iff_le] at digit
    have upper : 'A'.val.toNat = 65 := rfl
    have lower : 'a'.val.toNat = 97 := rfl
    have nine : '9'.val.toNat = 57 := rfl
    omega
  · rfl

/-- The first letter of a word is neither blank nor a digit. -/
theorem cut_of_isWordStart {first : Char} (start : isWordStart first) (rest : List Char) :
    cut first rest = .word first rest := by
  have notBlank : isBlank first = false := not_isBlank_of (by decide) start
  unfold cut
  rw [notBlank, not_isDigit_of_isWordStart start, start]
  rfl

theorem word_reaches {first : Char} {rest : List Char} (isWord : IsWord (first :: rest)) (more : List Char) :
    (cut first (rest ++ more)).Reaches (.token (.ofWord (String.ofList (first :: rest)))) rest.length := by
  cases isWord with
  | word start parts =>
      have inside : ∀ c ∈ rest, isWordPart c = true := fun c isPart => isWordPart_iff.mpr (parts c isPart)
      rw [cut_of_isWordStart (isWordStart_iff.mpr start), Cut.word, List.takeWhile_append_of_pos inside]
      exact .append (fun text => .token (.ofWord (String.ofList (first :: text)))) (fun _ => rfl) _ _

/-- A numeral is not cut short, and it begins with a digit. -/
theorem numeral_reaches {first : Char} {rest : List Char} {q : ℚ} (numeral : Numeral (first :: rest) q)
    (more : List Char) : first.isDigit ∧ ∃ further,
      (rest ++ more).takeWhile Char.isDigit ++ Cut.fraction ((rest ++ more).dropWhile Char.isDigit) =
        rest ++ further := by
  generalize text : first :: rest = all at numeral
  cases numeral with
  | whole written row =>
      subst text
      obtain ⟨isDigit, inside⟩ := List.forall_mem_cons.mp row
      rw [List.takeWhile_append_of_pos inside, List.append_assoc]
      exact ⟨isDigit, _, rfl⟩
  | @fraction digits behind written row writtenBehind rowBehind =>
      obtain ⟨_, others, rfl⟩ := List.exists_cons_of_ne_nil written
      obtain ⟨next, behind, rfl⟩ := List.exists_cons_of_ne_nil writtenBehind
      rw [List.cons_append] at text
      obtain ⟨rfl, rfl⟩ := List.cons.inj text
      obtain ⟨isDigit, inside⟩ := List.forall_mem_cons.mp row
      obtain ⟨nextDigit, insideBehind⟩ := List.forall_mem_cons.mp rowBehind
      have parts : others ++ '.' :: next :: behind ++ more = others ++ '.' :: next :: (behind ++ more) := by
        rw [List.append_assoc, List.cons_append, List.cons_append]
      have tail : Cut.fraction ('.' :: next :: (behind ++ more)) =
          '.' :: next :: behind ++ more.takeWhile Char.isDigit := by
        rw [Cut.fraction, if_pos nextDigit, List.takeWhile_append_of_pos insideBehind]
        rfl
      refine ⟨isDigit, more.takeWhile Char.isDigit, ?_⟩
      rw [parts, List.takeWhile_append_of_pos inside, List.dropWhile_append_of_pos inside,
        List.takeWhile_cons_of_neg (by decide), List.dropWhile_cons_of_neg (by decide), tail, List.append_nil,
        List.append_assoc]

theorem number_reaches {first : Char} {rest : List Char} {q : ℚ} (numeral : Numeral (first :: rest) q)
    (more : List Char) :
    (cut first (rest ++ more)).Reaches (.token (.number (String.ofList (first :: rest)))) rest.length := by
  obtain ⟨isDigit, further, tail⟩ := numeral_reaches numeral more
  rw [cut_of_isDigit isDigit, Cut.number, tail]
  exact .append (fun text => .token (.number (String.ofList (first :: text)))) (fun _ => rfl) _ _

theorem string_reaches {body : List Char} (closed : '"' ∉ body) (more : List Char) :
    (cut '"' (body ++ ['"'] ++ more)).Reaches (.token (.string (String.ofList body)))
      (body ++ ['"']).length := by
  have inside : ∀ c ∈ body, decide (c ≠ '"') = true := by
    intro c inBody
    rw [decide_eq_true_iff]
    exact ne_of_mem_of_not_mem inBody closed
  have taken : (body ++ ['"'] ++ more).takeWhile (· ≠ '"') = body := by
    rw [List.append_assoc, List.takeWhile_append_of_pos inside]
    exact List.append_nil body
  have closing : body.length ≠ (body ++ ['"'] ++ more).length := by
    rw [List.length_append, List.length_append, List.length_singleton]
    omega
  have same : cut '"' (body ++ ['"'] ++ more) =
      ⟨.token (.string (String.ofList body)), (body ++ ['"']).length⟩ := by
    change Cut.string (body ++ ['"'] ++ more) = _
    simp only [Cut.string]
    rw [taken, if_neg closing, List.length_append, List.length_singleton]
  rw [same]
  exact .same rfl

theorem ofWord_keyword (k : Keyword) : TokenKind.ofWord k.text = .keyword k := by
  cases k <;> rfl

theorem isWord_keyword (k : Keyword) : IsWord k.text.toList := by
  cases k <;> simp only [Keyword.text, String.reduceToList] <;> exact isWord_of_parts rfl rfl

theorem ofWord_free {name : List Char} (free : ∀ k : Keyword, k.text.toList ≠ name) :
    TokenKind.ofWord (String.ofList name) = .identifier (String.ofList name) := by
  have missed : Keyword.ofText? (String.ofList name) = none := by
    refine List.find?_eq_none.mpr fun k _ spelled => free k ?_
    rw [beq_iff_eq.mp spelled, String.toList_ofList]
  rw [TokenKind.ofWord, missed]

/-- Whatever has a form is not cut short, whatever stands behind it. -/
theorem Piece.Form.reaches {piece : Piece} {first : Char} {rest : List Char} (form : piece.Form (first :: rest))
    (more : List Char) : (cut first (rest ++ more)).Reaches piece rest.length := by
  generalize text : first :: rest = all at form
  cases form with
  | blank blank =>
      cases text
      exact blank_reaches (isBlank_iff.mpr blank) more
  | comment oneLine =>
      cases text
      exact comment_reaches oneLine more
  | symbol s => exact symbol_reaches s text.symm more
  | keyword k =>
      have isWord := isWord_keyword k
      rw [← text] at isWord
      have reaches := word_reaches isWord more
      rwa [text, String.ofList_toList, ofWord_keyword] at reaches
  | identifier isWord free =>
      rw [← ofWord_free free, ← text]
      rw [← text] at isWord
      exact word_reaches isWord more
  | number digits =>
      subst text
      exact number_reaches digits more
  | string closed =>
      cases text
      exact string_reaches closed more

theorem Piece.Form.exists_cons {piece : Piece} {text : List Char} (form : piece.Form text) :
    ∃ first rest, text = first :: rest := by
  cases form with
  | blank | comment | string => exact ⟨_, _, rfl⟩
  | symbol s => cases s <;> exact ⟨_, _, rfl⟩
  | keyword k => cases k <;> exact ⟨_, _, rfl⟩
  | identifier isWord =>
      cases isWord
      exact ⟨_, _, rfl⟩
  | number digits =>
      cases digits with
      | whole written => exact List.exists_cons_of_ne_nil written
      | fraction =>
          exact List.exists_cons_of_ne_nil (List.append_ne_nil_of_right_ne_nil _ (List.cons_ne_nil _ _))

/-! ## Cuts are longest matches -/

section Cuts

variable {first : Char} {rest : List Char}

/-- The first piece of a text is its longest match, unless it is a fault. -/
theorem longest_cut (noFault : (cut first rest).piece.isFault = false) :
    Longest (cut first rest).piece (first :: rest.take (cut first rest).extra)
      (rest.drop (cut first rest).extra) := by
  refine ⟨form_cut noFault, fun {other beginning more} form parts => ?_⟩
  obtain ⟨_, tail, rfl⟩ := form.exists_cons
  rw [List.cons_append, List.cons_append, List.take_append_drop] at parts
  obtain ⟨rfl, rfl⟩ := List.cons.inj parts
  have reaches := (form.reaches more).atLeast
  have within : (tail ++ more).length = tail.length + more.length := List.length_append
  rw [List.length_cons, List.length_cons, List.length_take]
  omega

/-- A match that is longest is what is cut. -/
theorem Longest.cut_eq {piece : Piece} (longest : Longest piece (first :: rest) more) :
    cut first (rest ++ more) = ⟨piece, rest.length⟩ := by
  obtain ⟨atLeast, exact, noFault⟩ := longest.form.reaches more
  have parts : (first :: (rest ++ more).take (cut first (rest ++ more)).extra) ++
      (rest ++ more).drop (cut first (rest ++ more)).extra = first :: rest ++ more := by
    rw [List.cons_append, List.take_append_drop, List.cons_append]
  have atMost := longest.longest (form_cut noFault) parts
  have within := extra_cut_le first (rest ++ more)
  rw [List.length_cons, List.length_cons, List.length_take, min_eq_left within] at atMost
  have extra : (cut first (rest ++ more)).extra = rest.length := by omega
  rw [← exact extra, ← extra]

/-- Where the first piece is a fault, no beginning has a form. -/
theorem formless_iff : Formless (first :: rest) ↔ (cut first rest).piece.isFault = true := by
  constructor
  · intro formless
    by_contra noFault
    rw [Bool.not_eq_true] at noFault
    refine formless _ _ (rest.drop (cut first rest).extra) ?_ (form_cut noFault)
    rw [List.cons_append, List.take_append_drop]
  · intro isFault piece beginning more parts form
    obtain ⟨_, tail, rfl⟩ := form.exists_cons
    obtain ⟨rfl, rfl⟩ := List.cons.inj parts
    exact Bool.false_ne_true ((form.reaches more).noFault.symm.trans isFault)

/-- A text that begins with the end of a line begins with a gap. -/
theorem Formless.newlines_head (formless : Formless (first :: rest)) : newlines [first] = 0 := by
  refine List.count_eq_zero.mpr fun isNewline => ?_
  obtain rfl := List.mem_singleton.mp isNewline
  exact formless .gap ['\n'] rest rfl (.blank (by decide))

end Cuts

/-- A fault takes an opening quote with all that stands behind it, or else one character. -/
theorem cut_fault {first : Char} {rest : List Char} (isFault : (cut first rest).piece.isFault = true) :
    (first = '"' ∧ cut first rest = ⟨.fault .unterminated, rest.length⟩) ∨
      (first ≠ '"' ∧ cut first rest = ⟨.fault (.unexpected first), 0⟩) := by
  by_cases quote : first = '"'
  · subst quote
    refine .inl ⟨rfl, ?_⟩
    change (Cut.string rest).piece.isFault = true at isFault
    change Cut.string rest = _
    simp only [Cut.string] at isFault ⊢
    split_ifs at isFault ⊢ with all
    · rfl
    · cases isFault
  · refine .inr ⟨quote, ?_⟩
    have takes := cut_fits first rest
    have within := extra_cut_le first rest
    unfold Cut.Fits at takes
    generalize cut first rest = next at *
    obtain ⟨piece, extra⟩ := next
    dsimp only at *
    generalize text : first :: rest.take extra = taken at takes
    generalize rest.drop extra = left at takes
    cases takes with
    | blank | comment | token => cases isFault
    | unterminated => exact absurd (List.cons.inj text).1 quote
    | unexpected =>
        obtain ⟨rfl, nothing⟩ := List.cons.inj text
        have short := congrArg List.length nothing
        rw [List.length_take, List.length_nil, min_eq_left within] at short
        rw [short]

theorem hasLiteral_of_form {kind : TokenKind} {text : List Char} (form : Piece.Form (.token kind) text) :
    HasLiteral kind kind.literal? := by
  cases form with
  | symbol s => exact .symbol s
  | keyword k => exact .keyword k
  | identifier => exact .identifier _
  | number digits =>
      rw [← String.toList_ofList (l := text)] at digits
      exact .number digits digits.isNearest
  | string => exact .string _

/-! ## The scan is what the grammar yields -/

/-- The grammar yields the items of a text. -/
theorem lexes_items (line : Nat) (text : List Char) : Lexes line text (items line (pieces text)) := by
  fun_induction pieces text generalizing line with
  | case1 => exact .finish
  | case2 first rest next inductionHypothesis =>
      simp only [items, next] at inductionHypothesis ⊢
      cases noFault : (cut first rest).piece.isFault with
      | false =>
          have longest := longest_cut noFault
          have parts : first :: rest =
              (first :: rest.take (cut first rest).extra) ++ rest.drop (cut first rest).extra := by
            rw [List.cons_append, List.take_append_drop]
          nth_rewrite 1 [parts]
          generalize (cut first rest).piece = piece at *
          cases piece with
          | gap => exact .gap longest (inductionHypothesis _)
          | token kind => exact .token longest (hasLiteral_of_form longest.form) (inductionHypothesis _)
          | fault => cases noFault
      | true =>
          have formless := formless_iff.mpr noFault
          rcases cut_fault noFault with ⟨rfl, same⟩ | ⟨noQuote, same⟩
          · rw [same, List.take_length, List.drop_length, pieces]
            exact .unterminated formless
          · rw [same] at inductionHypothesis ⊢
            rw [List.take_zero, List.drop_zero, formless.newlines_head, Nat.add_zero]
            exact .unexpected formless noQuote (inductionHypothesis _)

/-- The grammar yields nothing else. -/
theorem Lexes.eq_items {line : Nat} {text : List Char} {found : List ScanItem} (lexes : Lexes line text found) :
    found = items line (pieces text) := by
  induction lexes with
  | finish => rw [pieces, items]
  | gap longest others inductionHypothesis =>
      obtain ⟨first, tail, rfl⟩ := longest.form.exists_cons
      rw [List.cons_append, pieces, longest.cut_eq]
      simp only [List.take_left, List.drop_left, items]
      exact inductionHypothesis
  | token longest literal others inductionHypothesis =>
      obtain ⟨first, tail, rfl⟩ := longest.form.exists_cons
      rw [List.cons_append, pieces, longest.cut_eq]
      simp only [List.take_left, List.drop_left, items]
      exact congrArg _ inductionHypothesis
  | unterminated formless =>
      rcases cut_fault (formless_iff.mp formless) with ⟨-, same⟩ | ⟨noQuote, -⟩
      · rw [pieces, same]
        simp only [List.take_length, List.drop_length, pieces, items]
        rfl
      · exact absurd rfl noQuote
  | unexpected formless noQuote others inductionHypothesis =>
      rcases cut_fault (formless_iff.mp formless) with ⟨quote, -⟩ | ⟨-, same⟩
      · exact absurd quote noQuote
      · rw [pieces, same]
        simp only [List.take_zero, List.drop_zero, items, formless.newlines_head, Nat.add_zero]
        exact congrArg _ inductionHypothesis

/-- The scan is the lexer of the token grammar that always takes the longest match. -/
theorem lexes_iff_scan (source : String) (found : List ScanItem) :
    Lexes 1 source.toList found ↔ found = scan source := by
  rw [scan_eq]
  exact ⟨Lexes.eq_items, fun same => same ▸ lexes_items 1 source.toList⟩

/-- A name that begins like a reserved word, a number with a point behind it that is none of it, and a string over two
lines. -/
theorem lexes_iff_scan_mixed :
    Lexes 1 "orchid>=1.5.or//\n\"a\nb\"@".toList
      [.token ⟨.identifier "orchid", 1⟩, .token ⟨.symbol .greaterEqual, 1⟩, .token ⟨.number "1.5", 1⟩,
        .fault (.unexpected '.') 1, .token ⟨.keyword .orWord, 1⟩, .token ⟨.string "a\nb", 3⟩,
        .fault (.unexpected '@') 3, .finish 3] := by
  refine (lexes_iff_scan "orchid>=1.5.or//\n\"a\nb\"@" _).mpr ?_
  rw [scan_eq]
  cbv

theorem hasLiteral_of_lexes {line : Nat} {text : List Char} {found : List ScanItem} {token : Token}
    (lexes : Lexes line text found) (scanned : .token token ∈ found) : HasLiteral token.kind token.kind.literal? := by
  induction lexes with
  | finish => simp at scanned
  | gap longest others inductionHypothesis => exact inductionHypothesis scanned
  | token longest literal others inductionHypothesis =>
      rcases List.mem_cons.mp scanned with same | behind
      · cases same
        exact literal
      · exact inductionHypothesis behind
  | unterminated formless => simp at scanned
  | unexpected formless noQuote others inductionHypothesis =>
      exact inductionHypothesis ((List.mem_cons.mp scanned).resolve_left nofun)

/-- Every number that is scanned is written with digits, and with digits behind its point if it has one.  So it is
always read as a number, and never as something that stands in for one. -/
theorem numeral_of_scanned {source numeral : String} {line : Nat}
    (scanned : .token ⟨.number numeral, line⟩ ∈ scan source) : ∃ q, Numeral numeral.toList q := by
  cases hasLiteral_of_lexes ((lexes_iff_scan source _).mpr rfl) scanned with
  | number digits nearest => exact ⟨_, digits⟩

end Lexer

end ScopedScript

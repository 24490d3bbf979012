import ScopedScript.Token
namespace ScopedScript

/-!
# From text to tokens

A lexer is a cursor over the bytes of a text.  It looks at the byte under the cursor and at the two behind it,
jumps to the end of a comment or of a string, and counts the lines that it passes on the way.  `lex` reads one
piece of the text: a gap, a token or a fault.  `next` passes gaps up to the next thing to tell, and tells the end
of the text once.

A fault never stops the lexer, so one text can yield several.  The line of an item is the line on which its text
ends, which for a string may lie below the opening quote.

The bytes are those of a text in UTF-8, and a slice must begin and end between two characters.  What the text does
not allow, a byte behind its end or a slice inside a character, is a `Breach`.
-/

/-- Why a piece of text is not a token. -/
inductive LexicalFault where
  | unexpected (character : Char)
  | unterminated
  deriving DecidableEq, Repr

namespace LexicalFault

/-- The wording of a fault. -/
def message : LexicalFault → String
  | unexpected character => "Unexpected character: " ++ String.singleton character
  | unterminated => "Unterminated string."

end LexicalFault

/-- What a scan yields, in order. -/
inductive ScanItem where
  | token (token : Token)
  | fault (fault : LexicalFault) (line : Nat)
  | finish (line : Nat)
  deriving DecidableEq, Repr

/-- A cursor over the bytes of a text. -/
structure Lexer where
  text : String
  bytes : ByteArray
  /-- The first byte of the piece that is read. -/
  start : Nat := 0
  /-- The next byte to look at. -/
  position : Nat := 0
  line : Nat := 1
  /-- Whether the end of the text was told. -/
  done : Bool := false

namespace Lexer

/-- What a text does not allow. -/
inductive Breach where
  | byte (index : Nat)
  | slice (start stop : Nat)
  deriving DecidableEq, Repr

/-- What a piece of text is. -/
inductive Piece where
  | gap
  | token (kind : TokenKind)
  | fault (fault : LexicalFault)
  deriving DecidableEq, Repr

/-- What a lexer tells.  A token comes with the slice of the text that it was read from. -/
inductive Yield where
  | token (kind : TokenKind) (lexeme : String) (line : Nat)
  | fault (fault : LexicalFault) (line : Nat)
  | finish (line : Nat)
  deriving DecidableEq, Repr

/-- The item of what is told. -/
def Yield.item : Yield → ScanItem
  | token kind _ line => .token ⟨kind, line⟩
  | fault f line => .fault f line
  | finish line => .finish line

/-- Names and reserved words begin with an ASCII letter or an underscore. -/
def isWordStart (c : Char) : Bool := c.isAlpha || c = '_'

/-- Digits may follow inside a word. -/
def isWordPart (c : Char) : Bool := c.isAlphanum || c = '_'

/-! ## Looking at bytes -/

/-- A lexer at the beginning of a text. -/
def ofText (text : String) : Lexer := { text, bytes := text.toUTF8 }

/-- Whether there is no further byte. -/
def isAtEnd (lexer : Lexer) : Bool := lexer.bytes.size ≤ lexer.position

/-- The byte so many places ahead, or zero behind the end. -/
def peekAt (lexer : Lexer) (ahead : Nat) : UInt8 :=
  if inside : lexer.position + ahead < lexer.bytes.size then lexer.bytes[lexer.position + ahead] else 0

/-- The byte under the cursor, and the cursor behind it. -/
def bump (lexer : Lexer) : Except Breach (UInt8 × Lexer) :=
  if inside : lexer.position < lexer.bytes.size then
    .ok (lexer.bytes[lexer.position], { lexer with position := lexer.position + 1 })
  else .error (.byte lexer.position)

/-- The text between two bytes. -/
def slice (lexer : Lexer) (start stop : Nat) : Except Breach String :=
  if valid : String.Pos.Raw.IsValid lexer.text ⟨start⟩ ∧ String.Pos.Raw.IsValid lexer.text ⟨stop⟩ ∧ start ≤ stop then
    .ok (String.extract (s := lexer.text) ⟨⟨start⟩, valid.1⟩ ⟨⟨stop⟩, valid.2.1⟩)
  else .error (.slice start stop)

/-- The first character of the text from a byte on, if there is one. -/
def character? (lexer : Lexer) (start : Nat) : Except Breach (Option Char) :=
  if valid : String.Pos.Raw.IsValid lexer.text ⟨start⟩ then
    let position : lexer.text.Pos := ⟨⟨start⟩, valid⟩
    .ok (if inside : position ≠ lexer.text.endPos then some (position.get inside) else none)
  else .error (.slice start lexer.bytes.size)

/-- The first place of a byte at an index or behind it. -/
def placeOf? (byte : UInt8) (bytes : ByteArray) (index : Nat) : Option Nat :=
  if inside : index < bytes.size then
    if bytes[index] = byte then some index else placeOf? byte bytes (index + 1)
  else none
termination_by bytes.size - index

/-- How many lines bytes move on. -/
def lineFeeds (bytes : ByteArray) : Nat := bytes.data.count '\n'.toUInt8

/-! ## Passing bytes -/

/-- Characters of which any number may be passed.  They are of ASCII, so each is one byte, and zero is none of them,
since it stands for the end of a text. -/
structure Passable where
  includes : Char → Bool
  ascii : ∀ c, includes c = true → c.toNat < 128
  zero : includes '\x00' = false

/-- Whether the byte under the cursor is one of these. -/
def meets (lexer : Lexer) (these : Passable) (ahead : Nat) : Bool :=
  these.includes (Char.ofUInt8 (lexer.peekAt ahead))

theorem isDigit_ascii (c : Char) (isDigit : c.isDigit = true) : c.toNat < 128 := by
  have upper : c.val ≤ '9'.val := of_decide_eq_true (Bool.and_eq_true_iff.mp isDigit).2
  exact Nat.lt_of_le_of_lt (UInt32.le_iff_toNat_le.mp upper) (by decide)

theorem isAlpha_ascii (c : Char) (isAlpha : c.isAlpha = true) : c.toNat < 128 := by
  rcases Bool.or_eq_true_iff.mp isAlpha with isUpper | isLower
  · have upper : c.val ≤ 'Z'.val := (of_decide_eq_true isUpper).2
    exact Nat.lt_of_le_of_lt (UInt32.le_iff_toNat_le.mp upper) (by decide)
  · have upper : c.val ≤ 'z'.val := of_decide_eq_true (Bool.and_eq_true_iff.mp isLower).2
    exact Nat.lt_of_le_of_lt (UInt32.le_iff_toNat_le.mp upper) (by decide)

theorem isWordPart_ascii (c : Char) (isPart : isWordPart c = true) : c.toNat < 128 := by
  rcases Bool.or_eq_true_iff.mp isPart with isAlphanum | isUnderscore
  · rcases Bool.or_eq_true_iff.mp isAlphanum with isAlpha | isDigit
    · exact isAlpha_ascii c isAlpha
    · exact isDigit_ascii c isDigit
  · obtain rfl : c = '_' := of_decide_eq_true isUnderscore
    decide

/-- Digits. -/
def digits : Passable := ⟨Char.isDigit, isDigit_ascii, rfl⟩

/-- What may stand inside of words. -/
def wordParts : Passable := ⟨isWordPart, isWordPart_ascii, rfl⟩

theorem lt_size_of_meets {lexer : Lexer} {these : Passable} (more : lexer.meets these 0 = true) :
    lexer.position < lexer.bytes.size := by
  refine Nat.lt_of_not_le fun outside => ?_
  have behind : ¬lexer.position + 0 < lexer.bytes.size := Nat.not_lt.mpr outside
  have zero : Char.ofUInt8 0 = '\x00' := rfl
  rw [meets, peekAt, dif_neg behind, zero, these.zero] at more
  cases more

/-- Pass bytes as long as they are among these. -/
def pass (these : Passable) (lexer : Lexer) : Lexer :=
  if _more : lexer.meets these 0 then pass these { lexer with position := lexer.position + 1 } else lexer
termination_by lexer.bytes.size - lexer.position
decreasing_by exact Nat.sub_succ_lt_self _ _ (lt_size_of_meets _more)

/-- An operator that becomes another one when an equals sign follows at once. -/
def operator (lexer : Lexer) (withEqual plain : Symbol) : Piece × Lexer :=
  if lexer.peekAt 0 = '='.toUInt8 then
    (.token (.symbol withEqual), { lexer with position := lexer.position + 1 })
  else (.token (.symbol plain), lexer)

/-- A comment from its second slash on.  The line feed behind it stays, so that it is counted as a gap. -/
def comment (lexer : Lexer) : Except Breach (Piece × Lexer) :=
  if lexer.position ≤ lexer.bytes.size then
    let stop := (placeOf? '\n'.toUInt8 lexer.bytes lexer.position).getD lexer.bytes.size
    .ok (.gap, { lexer with position := stop })
  else .error (.slice lexer.position lexer.bytes.size)

/-- A string behind its opening quote.  Without a closing one it takes the whole rest. -/
def string (lexer : Lexer) : Except Breach (Piece × Lexer) :=
  if lexer.position ≤ lexer.bytes.size then
    match placeOf? '"'.toUInt8 lexer.bytes lexer.position with
    | none =>
      let passed := lineFeeds (lexer.bytes.extract lexer.position lexer.bytes.size)
      .ok (.fault .unterminated, { lexer with line := lexer.line + passed, position := lexer.bytes.size })
    | some close => do
      let body ← lexer.slice lexer.position close
      let passed := lineFeeds body.toUTF8
      return (.token (.string body), { lexer with line := lexer.line + passed, position := close + 1 })
  else .error (.slice lexer.position lexer.bytes.size)

/-- The point and the digits behind it, when at least one digit is there. -/
def fraction (lexer : Lexer) : Lexer :=
  if lexer.peekAt 0 = '.'.toUInt8 ∧ lexer.meets digits 1 then
    pass digits { lexer with position := lexer.position + 1 }
  else lexer

/-- A number behind its first digit. -/
def number (lexer : Lexer) : Except Breach (Piece × Lexer) := do
  let after := (lexer.pass digits).fraction
  let numeral ← after.slice after.start after.position
  return (.token (.number numeral), after)

/-- A name or a reserved word behind its first letter. -/
def word (lexer : Lexer) : Except Breach (Piece × Lexer) := do
  let after := lexer.pass wordParts
  let letters ← after.slice after.start after.position
  return (.token (.ofWord letters), after)

/-- A character that begins nothing.  All its bytes are passed at once. -/
def unexpected (lexer : Lexer) (byte : UInt8) : Except Breach (Piece × Lexer) := do
  let found ← lexer.character? lexer.start
  let c := found.getD (Char.ofUInt8 byte)
  return (.fault (.unexpected c), { lexer with position := lexer.start + c.utf8Size })

/-! ## Reading -/

/-- Read a piece behind its first byte. -/
def lexBehind (byte : UInt8) (lexer : Lexer) : Except Breach (Piece × Lexer) :=
  match Char.ofUInt8 byte with
  | '(' => .ok (.token (.symbol .leftParen), lexer)
  | ')' => .ok (.token (.symbol .rightParen), lexer)
  | '{' => .ok (.token (.symbol .leftBrace), lexer)
  | '}' => .ok (.token (.symbol .rightBrace), lexer)
  | ',' => .ok (.token (.symbol .comma), lexer)
  | '-' => .ok (.token (.symbol .minus), lexer)
  | '+' => .ok (.token (.symbol .plus), lexer)
  | ';' => .ok (.token (.symbol .semicolon), lexer)
  | '*' => .ok (.token (.symbol .star), lexer)
  | '!' => .ok (lexer.operator .bangEqual .bang)
  | '=' => .ok (lexer.operator .equalEqual .equal)
  | '<' => .ok (lexer.operator .lessEqual .less)
  | '>' => .ok (lexer.operator .greaterEqual .greater)
  | '/' => if lexer.peekAt 0 = '/'.toUInt8 then lexer.comment else .ok (.token (.symbol .slash), lexer)
  | ' ' | '\r' | '\t' => .ok (.gap, lexer)
  | '\n' => .ok (.gap, { lexer with line := lexer.line + 1 })
  | '"' => lexer.string
  | c =>
    if c.isDigit then lexer.number
    else if isWordStart c then lexer.word
    else lexer.unexpected byte

/-- Read one piece. -/
def lex (lexer : Lexer) : Except Breach (Piece × Lexer) := do
  let (byte, behind) ← lexer.bump
  lexBehind byte behind

/-! ## The cursor moves on -/

/-- The cursor stands in the same text and no further back. -/
structure Leads (lexer after : Lexer) : Prop where
  bytes : after.bytes = lexer.bytes
  done : after.done = lexer.done
  position : lexer.position ≤ after.position

section Leads

variable {lexer after : Lexer} {piece : Piece}

theorem Leads.refl (lexer : Lexer) : lexer.Leads lexer := ⟨rfl, rfl, Nat.le_refl _⟩

theorem Leads.trans {further : Lexer} (leads : lexer.Leads after) (leadsToo : after.Leads further) :
    lexer.Leads further :=
  ⟨leadsToo.bytes.trans leads.bytes, leadsToo.done.trans leads.done, Nat.le_trans leads.position leadsToo.position⟩

theorem leads_moved (lexer : Lexer) : lexer.Leads { lexer with position := lexer.position + 1 } :=
  ⟨rfl, rfl, Nat.le_succ _⟩

/-- An answer made of what was found leads on, when it does so for whatever may be found. -/
theorem Leads.of_answer {α : Type} {found : Except Breach α} {answer : α → Piece × Lexer}
    (leads : ∀ a, lexer.Leads (answer a).2) (read : (do return answer (← found)) = Except.ok (piece, after)) :
    lexer.Leads after := by
  cases found with
  | error => cases read
  | ok a =>
      have same : answer a = (piece, after) := Except.ok.inj read
      have leadsOn := leads a
      rwa [same] at leadsOn

theorem le_of_placeOf? {byte : UInt8} {bytes : ByteArray} {index place : Nat}
    (found : placeOf? byte bytes index = some place) : index ≤ place := by
  fun_induction placeOf? byte bytes index with
  | case1 index => exact Nat.le_of_eq (Option.some.inj found)
  | case2 index _ _ inductionHypothesis => exact Nat.le_of_succ_le (inductionHypothesis found)
  | case3 => cases found

theorem pass_leads (these : Passable) (lexer : Lexer) : lexer.Leads (lexer.pass these) := by
  fun_induction pass these lexer with
  | case1 lexer _ inductionHypothesis => exact (leads_moved lexer).trans inductionHypothesis
  | case2 lexer => exact .refl lexer

theorem operator_leads (withEqual plain : Symbol) (lexer : Lexer) :
    lexer.Leads (lexer.operator withEqual plain).2 := by
  unfold operator
  split
  · exact leads_moved lexer
  · exact .refl lexer

theorem comment_leads (read : lexer.comment = .ok (piece, after)) : lexer.Leads after := by
  unfold comment at read
  split at read
  · rename_i inside
    cases read
    refine ⟨rfl, rfl, ?_⟩
    cases found : placeOf? '\n'.toUInt8 lexer.bytes lexer.position with
    | none => exact inside
    | some place => exact le_of_placeOf? found
  · cases read

theorem string_leads (read : lexer.string = .ok (piece, after)) : lexer.Leads after := by
  unfold string at read
  split at read
  · rename_i inside
    split at read
    · cases read
      exact ⟨rfl, rfl, inside⟩
    · rename_i close found
      exact .of_answer (fun _ => ⟨rfl, rfl, Nat.le_succ_of_le (le_of_placeOf? found)⟩) read
  · cases read

theorem fraction_leads (lexer : Lexer) : lexer.Leads lexer.fraction := by
  unfold fraction
  split
  · exact (leads_moved lexer).trans (pass_leads _ _)
  · exact .refl lexer

theorem number_leads (read : lexer.number = .ok (piece, after)) : lexer.Leads after := by
  have leads := (pass_leads digits lexer).trans (fraction_leads (lexer.pass digits))
  exact .of_answer (fun _ => leads) read

theorem word_leads (read : lexer.word = .ok (piece, after)) : lexer.Leads after :=
  .of_answer (fun _ => pass_leads wordParts lexer) read

theorem unexpected_leads {byte : UInt8} (opened : lexer.position = lexer.start + 1)
    (read : lexer.unexpected byte = .ok (piece, after)) : lexer.Leads after := by
  refine .of_answer (fun found => ⟨rfl, rfl, ?_⟩) read
  rw [opened]
  exact Nat.add_le_add_left (Char.utf8Size_pos _) _

theorem lexBehind_leads {byte : UInt8} (opened : lexer.position = lexer.start + 1)
    (read : lexBehind byte lexer = .ok (piece, after)) : lexer.Leads after := by
  unfold lexBehind at read
  split at read
  all_goals try
    cases read
    exact .refl lexer
  all_goals try
    obtain rfl : _ = after := congrArg Prod.snd (Except.ok.inj read)
    exact operator_leads _ _ lexer
  · split at read
    · exact comment_leads read
    · cases read
      exact .refl lexer
  · cases read
    exact ⟨rfl, rfl, Nat.le_refl _⟩
  · exact string_leads read
  · split at read
    · exact number_leads read
    · split at read
      · exact word_leads read
      · exact unexpected_leads opened read

/-- Whatever a piece is, the cursor passes at least one byte of it. -/
theorem lex_leads (opened : lexer.start = lexer.position) (read : lexer.lex = .ok (piece, after)) :
    lexer.position < lexer.bytes.size ∧ lexer.Leads after ∧ lexer.position < after.position := by
  unfold lex bump at read
  split at read
  · rename_i inside
    have leads := lexBehind_leads (congrArg (· + 1) opened.symm) read
    exact ⟨inside, (leads_moved lexer).trans leads, leads.position⟩
  · cases read

end Leads

/-! ## Telling one thing after another -/

/-- How much there may still be to tell. -/
def left (lexer : Lexer) : Nat := 2 * (lexer.bytes.size - lexer.position) + if lexer.done then 0 else 1

theorem left_lt_of_lex {lexer after : Lexer} {piece : Piece}
    (read : lex { lexer with start := lexer.position } = .ok (piece, after)) : after.left < lexer.left := by
  rcases lex_leads rfl read with ⟨inside, leads, further⟩
  have shorter := Nat.sub_lt_sub_left inside further
  rw [left, left, leads.bytes, leads.done]
  dsimp only at shorter ⊢
  omega

/-- A result, and what is known of it. -/
def withEvidence {α : Type} {P : α → Prop} (result : Except Breach α) (known : ∀ a, result = .ok a → P a) :
    Except Breach { a : α // P a } :=
  match result, known with
  | .error breach, _ => .error breach
  | .ok a, known => .ok ⟨a, known a rfl⟩

theorem withEvidence_ok {α : Type} {P : α → Prop} {result : Except Breach α} {a : α} (same : result = .ok a)
    (known : ∀ a, result = .ok a → P a) : withEvidence result known = .ok ⟨a, known a same⟩ := by
  subst same
  rfl

/-- Read the piece that begins under the cursor.  There is less to tell behind it. -/
def read (lexer : Lexer) : Except Breach { found : Piece × Lexer // found.2.left < lexer.left } :=
  withEvidence (lex { lexer with start := lexer.position }) fun _ => left_lt_of_lex

/-- The next thing to tell, or nothing once the end of the text was told. -/
def next (lexer : Lexer) : Except Breach (Option Yield × Lexer) :=
  if lexer.isAtEnd then
    if lexer.done then .ok (none, lexer)
    else .ok (some (.finish lexer.line), { lexer with done := true })
  else
    match lexer.read with
    | .error breach => .error breach
    | .ok ⟨(.gap, after), _⟩ => after.next
    | .ok ⟨(.token kind, after), _⟩ => do
      let lexeme ← after.slice after.start after.position
      return (some (.token kind lexeme after.line), after)
    | .ok ⟨(.fault f, after), _⟩ => .ok (some (.fault f after.line), after)
termination_by lexer.left

theorem left_lt_of_next {lexer after : Lexer} {told : Yield} (tells : lexer.next = .ok (some told, after)) :
    after.left < lexer.left := by
  fun_induction next lexer with
  | case1 => cases tells
  | case2 lexer _ notDone =>
      cases tells
      simp [left, notDone]
  | case3 => cases tells
  | case4 lexer _ middle shorter _ inductionHypothesis => exact Nat.lt_trans (inductionHypothesis tells) shorter
  | case5 lexer _ kind middle shorter =>
      cases sliced : middle.slice middle.start middle.position with
      | error =>
          rw [sliced] at tells
          cases tells
      | ok lexeme =>
          rw [sliced] at tells
          cases tells
          exact shorter
  | case6 lexer _ fault middle shorter =>
      cases tells
      exact shorter

/-- Tell the next thing.  There is less to tell behind it. -/
def tell (lexer : Lexer) :
    Except Breach { answer : Option Yield × Lexer // ∀ told, answer.1 = some told → answer.2.left < lexer.left } :=
  withEvidence lexer.next fun _ tells _ isTold => left_lt_of_next (by rw [tells, ← isTold])

/-- All that a lexer tells, behind what it told so far in reverse. -/
def collect (lexer : Lexer) (told : List Yield) : Except Breach (List Yield) :=
  match lexer.tell with
  | .error breach => .error breach
  | .ok ⟨(none, _), _⟩ => .ok told.reverse
  | .ok ⟨(some more, after), shorter⟩ =>
    have := shorter more rfl
    after.collect (more :: told)
termination_by lexer.left

end Lexer

/-- All items of a text, up to and including its end. -/
def scan (source : String) : List ScanItem :=
  match (Lexer.ofText source).collect [] with
  | .ok told => told.map Lexer.Yield.item
  | .error _ => []

/-- The tokens of a scan behind those already found in reverse, unless a fault comes first. -/
def gatherTokens (found : List Token) : List ScanItem → Except (LexicalFault × Nat) TokenStream
  | [] => .ok ⟨found.reverse, 1⟩
  | .token t :: rest => gatherTokens (t :: found) rest
  | .fault fault line :: _ => .error (fault, line)
  | .finish line :: _ => .ok ⟨found.reverse, line⟩

/-- All tokens of a text, or else its first fault and the line of it. -/
def tokenize (source : String) : Except (LexicalFault × Nat) TokenStream :=
  gatherTokens [] (scan source)

end ScopedScript

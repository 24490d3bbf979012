import ScopedScript.Token.Lexer
namespace ScopedScript

/-!
# Cuts

What a text begins with, told by its characters: `cut` decides how far the first piece of a text reaches and what
it is, and knows neither bytes nor lines.
-/

namespace Lexer

/-- A piece of text that begins with a given character and takes `extra` more characters. -/
structure Cut where
  piece : Piece
  extra : Nat

/-- Blank characters separate tokens. -/
def isBlank (c : Char) : Bool := c = ' ' || c = '\r' || c = '\t' || c = '\n'

/-- A symbol of one character. -/
def Cut.symbol (s : Symbol) : Cut := ⟨.token (.symbol s), 0⟩

/-- An operator that becomes another one when an equals sign follows at once. -/
def Cut.operator (plain withEqual : Symbol) : List Char → Cut
  | '=' :: _ => ⟨.token (.symbol withEqual), 1⟩
  | _ => symbol plain

/-- A slash, or a comment up to the end of its line. -/
def Cut.slashOrComment : List Char → Cut
  | '/' :: rest => ⟨.gap, 1 + (rest.takeWhile (· ≠ '\n')).length⟩
  | _ => symbol .slash

/-- A string reaches to the next quote; without one it takes the whole rest. -/
def Cut.string (rest : List Char) : Cut :=
  let body := rest.takeWhile (· ≠ '"')
  if body.length = rest.length then ⟨.fault .unterminated, rest.length⟩
  else ⟨.token (.string (String.ofList body)), body.length + 1⟩

/-- The point and the digits behind it, when at least one digit is there. -/
def Cut.fraction : List Char → List Char
  | '.' :: digit :: rest =>
    if digit.isDigit then '.' :: digit :: rest.takeWhile Char.isDigit else []
  | _ => []

/-- Digits, and a fraction when one follows. -/
def Cut.number (first : Char) (rest : List Char) : Cut :=
  let whole := rest.takeWhile Char.isDigit
  let tail := whole ++ fraction (rest.dropWhile Char.isDigit)
  ⟨.token (.number (String.ofList (first :: tail))), tail.length⟩

/-- A name or a reserved word. -/
def Cut.word (first : Char) (rest : List Char) : Cut :=
  let tail := rest.takeWhile isWordPart
  ⟨.token (.ofWord (String.ofList (first :: tail))), tail.length⟩

/-- The piece of text that begins with `first`. -/
def cut (first : Char) (rest : List Char) : Cut :=
  if isBlank first then ⟨.gap, 0⟩
  else if first.isDigit then .number first rest
  else if isWordStart first then .word first rest
  else match first with
    | '(' => .symbol .leftParen
    | ')' => .symbol .rightParen
    | '{' => .symbol .leftBrace
    | '}' => .symbol .rightBrace
    | ',' => .symbol .comma
    | '-' => .symbol .minus
    | '+' => .symbol .plus
    | ';' => .symbol .semicolon
    | '*' => .symbol .star
    | '/' => .slashOrComment rest
    | '!' => .operator .bang .bangEqual rest
    | '=' => .operator .equal .equalEqual rest
    | '<' => .operator .less .lessEqual rest
    | '>' => .operator .greater .greaterEqual rest
    | '"' => .string rest
    | _ => ⟨.fault (.unexpected first), 0⟩

/-- Gaps yield nothing. -/
def Piece.item? (line : Nat) : Piece → Option ScanItem
  | gap => none
  | token kind => some (.token ⟨kind, line⟩)
  | fault f => some (.fault f line)

/-- How many lines a piece of text moves on. -/
def newlines (text : List Char) : Nat := text.count '\n'

end Lexer

end ScopedScript

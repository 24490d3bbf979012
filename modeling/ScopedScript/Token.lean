import ScopedScript.Number.Decimal
namespace ScopedScript

/-!
# Tokens

A token is one of the fixed symbols, one of the thirteen reserved words, a name, a string or a number,
together with the line on which it ends.  Its lexeme and its literal are functions of its kind, so a
token cannot disagree with itself: strings and numbers carry a literal and nothing else does.
-/

/-- Punctuation and operators. -/
inductive Symbol where
  | leftParen | rightParen | leftBrace | rightBrace
  | comma | minus | plus | semicolon | slash | star
  | bang | bangEqual | equal | equalEqual
  | greater | greaterEqual | less | lessEqual
  deriving DecidableEq, Repr

namespace Symbol

/-- The characters of a symbol. -/
def text : Symbol → String
  | leftParen => "("
  | rightParen => ")"
  | leftBrace => "\x7b"
  | rightBrace => "\x7d"
  | comma => ","
  | minus => "-"
  | plus => "+"
  | semicolon => ";"
  | slash => "/"
  | star => "*"
  | bang => "!"
  | bangEqual => "!="
  | equal => "="
  | equalEqual => "=="
  | greater => ">"
  | greaterEqual => ">="
  | less => "<"
  | lessEqual => "<="

/-- The name of a symbol in token listings. -/
def label : Symbol → String
  | leftParen => "LEFT_PAREN"
  | rightParen => "RIGHT_PAREN"
  | leftBrace => "LEFT_BRACE"
  | rightBrace => "RIGHT_BRACE"
  | comma => "COMMA"
  | minus => "MINUS"
  | plus => "PLUS"
  | semicolon => "SEMICOLON"
  | slash => "SLASH"
  | star => "STAR"
  | bang => "BANG"
  | bangEqual => "BANG_EQUAL"
  | equal => "EQUAL"
  | equalEqual => "EQUAL_EQUAL"
  | greater => "GREATER"
  | greaterEqual => "GREATER_EQUAL"
  | less => "LESS"
  | lessEqual => "LESS_EQUAL"

end Symbol

/-- The reserved words. -/
inductive Keyword where
  | andWord | elseWord | falseWord | funWord | forWord | ifWord | nilWord
  | orWord | printWord | returnWord | trueWord | varWord | whileWord
  deriving DecidableEq, Repr

namespace Keyword

/-- The letters of a reserved word. -/
def text : Keyword → String
  | andWord => "and"
  | elseWord => "else"
  | falseWord => "false"
  | funWord => "fun"
  | forWord => "for"
  | ifWord => "if"
  | nilWord => "nil"
  | orWord => "or"
  | printWord => "print"
  | returnWord => "return"
  | trueWord => "true"
  | varWord => "var"
  | whileWord => "while"

/-- The name of a reserved word in token listings. -/
def label : Keyword → String
  | andWord => "AND"
  | elseWord => "ELSE"
  | falseWord => "FALSE"
  | funWord => "FUN"
  | forWord => "FOR"
  | ifWord => "IF"
  | nilWord => "NIL"
  | orWord => "OR"
  | printWord => "PRINT"
  | returnWord => "RETURN"
  | trueWord => "TRUE"
  | varWord => "VAR"
  | whileWord => "WHILE"

/-- Every reserved word. -/
def all : List Keyword :=
  [andWord, elseWord, falseWord, funWord, forWord, ifWord, nilWord,
    orWord, printWord, returnWord, trueWord, varWord, whileWord]

/-- The reserved word with the given letters. -/
def ofText? (word : String) : Option Keyword := all.find? (·.text == word)

end Keyword

/-- What a token is. -/
inductive TokenKind where
  | symbol (symbol : Symbol)
  | keyword (keyword : Keyword)
  | identifier (name : String)
  /-- A string with the characters between its quotes. -/
  | string (body : String)
  /-- A number with its digits as written. -/
  | number (numeral : String)
  deriving DecidableEq, Repr

/-- The value that a token stands for on its own. -/
inductive TokenLiteral where
  | number (value : Float)
  | text (body : String)
  deriving DecidableEq

namespace TokenKind

/-- The exact characters of a token. -/
def lexeme : TokenKind → String
  | symbol s => s.text
  | keyword k => k.text
  | identifier name => name
  | string body => "\"" ++ body ++ "\""
  | number numeral => numeral

/-- The name of a token's kind in token listings. -/
def label : TokenKind → String
  | symbol s => s.label
  | keyword k => k.label
  | identifier _ => "IDENTIFIER"
  | string _ => "STRING"
  | number _ => "NUMBER"

/-- The literal of a string or a number. -/
def literal? : TokenKind → Option TokenLiteral
  | string body => some (.text body)
  | number numeral => some (.number (Decimal.ofNumeral numeral.toList).toFloat)
  | _ => none

/-- A run of letters, digits and underscores is a reserved word or else a name. -/
def ofWord (word : String) : TokenKind :=
  match Keyword.ofText? word with
  | some k => .keyword k
  | none => .identifier word

end TokenKind

/-- A token and the line on which it ends. -/
structure Token where
  kind : TokenKind
  line : Nat
  deriving DecidableEq, Repr

/-- The tokens of a text and the line on which the text ends. -/
structure TokenStream where
  tokens : List Token
  endLine : Nat
  deriving DecidableEq, Repr

end ScopedScript

import ScopedScript.Number.Format
import ScopedScript.Token.Lexer
namespace ScopedScript

/-!
# Token listings

A listing shows one token per line, either as three words (kind, lexeme and literal) or as a record with a field for
each of them.  How a record is written is left to a writer.  The end of the text is listed like a token with an empty
lexeme.
-/

/-- The fields that a listing shows of a token. -/
structure ListingRow where
  label : String
  lexeme : String
  literal? : Option TokenLiteral
  line : Nat
  deriving DecidableEq

/-- What a field of a record holds. -/
inductive FieldValue where
  | text (text : String)
  | number (value : Float)
  | natural (value : Nat)

/-- A field of a record. -/
structure Field where
  name : String
  value : FieldValue

/-- Writes the fields of a record, in their order, as a text, or says why it cannot. -/
abbrev RecordWriter := List Field → Except String String

namespace TokenLiteral

/-- A literal in a plain listing. -/
def listed : TokenLiteral → String
  | number value => NumberFormat.listed value
  | text body => body

/-- The value of the field that holds a literal. -/
def fieldValue : TokenLiteral → FieldValue
  | number value => .number value
  | text body => .text body

end TokenLiteral

namespace ListingRow

/-- The row of a token. -/
def ofToken (token : Token) : ListingRow :=
  ⟨token.kind.label, token.kind.lexeme, token.kind.literal?, token.line⟩

/-- The row of the end of a text. -/
def ofEnd (line : Nat) : ListingRow := ⟨"EOF", "", none, line⟩

/-- A plain listing line; a token without literal shows `null`. -/
def plain (row : ListingRow) : String :=
  row.label ++ " " ++ row.lexeme ++ " " ++ (row.literal?.map TokenLiteral.listed).getD "null"

/-- The record of a row; a token without literal has no such field. -/
def record (row : ListingRow) : List Field :=
  [⟨"token_type", .text row.label⟩, ⟨"lexeme", .text row.lexeme⟩] ++
    (row.literal?.map fun literal => ⟨"literal", literal.fieldValue⟩).toList ++ [⟨"line", .natural row.line⟩]

end ListingRow

namespace ScanItem

/-- The row of an item, or else its fault and line. -/
def row : ScanItem → Except (LexicalFault × Nat) ListingRow
  | token t => .ok (ListingRow.ofToken t)
  | finish line => .ok (ListingRow.ofEnd line)
  | fault f line => .error (f, line)

end ScanItem

end ScopedScript

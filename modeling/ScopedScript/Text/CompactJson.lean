import ScopedScript.Token.Listing
namespace ScopedScript

/-!
# Records in compact JSON

One way to write a record as JSON: an object without blanks.  The program around the library lists tokens in it, and
no result depends on it.
-/

namespace CompactJson

/-- One lower-case hexadecimal digit. -/
def hexDigit (n : Nat) : Char :=
  if n < 10 then Char.ofNat ('0'.toNat + n) else Char.ofNat ('a'.toNat + (n - 10))

/-- A number below 256 as two hexadecimal digits. -/
def hexByte (n : Nat) : List Char := [hexDigit (n / 16), hexDigit (n % 16)]

/-- The written form of one character. -/
def escape (c : Char) : List Char :=
  if c = '"' then ['\\', '"']
  else if c = '\\' then ['\\', '\\']
  else if c = '\x08' then ['\\', 'b']
  else if c = '\x0c' then ['\\', 'f']
  else if c = '\n' then ['\\', 'n']
  else if c = '\r' then ['\\', 'r']
  else if c = '\t' then ['\\', 't']
  else if c.toNat < 0x20 then '\\' :: 'u' :: '0' :: '0' :: hexByte c.toNat
  else [c]

/-- The escaped characters, without the quotes around them. -/
def escapeAll (cs : List Char) : List Char := cs.flatMap escape

/-- A text between quotes. -/
def quote (text : String) : String :=
  String.ofList ('"' :: escapeAll text.toList ++ ['"'])

/-- Leading digits within these powers of ten are written positionally. -/
def isPositional (power : Int) : Bool := -5 ≤ power && power ≤ 15

/-- The shortest form of a number, with `.0` on a positional whole number and an exponent outside the positional
range.  Numbers without digits are written `null`. -/
def number (x : Float) : String :=
  String.ofList <| match Binary64.ofFloat x with
    | .nan => "null".toList
    | .infinite _ => "null".toList
    | .finite negative significand exponent =>
      NumberFormat.signed negative <|
        if significand = 0 then "0.0".toList
        else
          let shortest := shortestDecimal .even significand exponent
          if isPositional shortest.magnitude then
            if 0 ≤ shortest.exponent then shortest.positional ++ ".0".toList
            else shortest.positional
          else shortest.scientific

/-- The value of a field. -/
def value : FieldValue → String
  | .text text => quote text
  | .number x => number x
  | .natural n => toString n

/-- A member of an object. -/
def member (field : Field) : String := quote field.name ++ ":" ++ value field.value

/-- An object of the fields of a record, in their order.  It is always written. -/
def write : RecordWriter := fun record => .ok ("\x7b" ++ ",".intercalate (record.map member) ++ "\x7d")

end CompactJson

end ScopedScript

import ScopedScript.Text.Graphic
namespace ScopedScript

/-!
# Quoted names

Names between double quotes, as messages show them.  A quote, a backslash and every character that is not graphic are
escaped, so a quoted name stays on one line.
-/

namespace Quoted

/-- A number in hexadecimal without leading zeros. -/
def hexNumber (n : Nat) : List Char := Nat.toDigits 16 n

/-- One character of a name in a message.  What would not be seen and has no short form is numbered. -/
def escapeInName (c : Char) : List Char :=
  if c = '"' then ['\\', '"']
  else if c = '\\' then ['\\', '\\']
  else if c = '\n' then ['\\', 'n']
  else if c = '\r' then ['\\', 'r']
  else if c = '\t' then ['\\', 't']
  else if c = '\x00' then ['\\', '0']
  else if isGraphic c then [c]
  else ['\\', 'u', '{'] ++ hexNumber c.toNat ++ ['}']

/-- A name between quotes, for a message. -/
def quoteName (name : String) : String :=
  String.ofList ('"' :: name.toList.flatMap escapeInName ++ ['"'])

end Quoted

end ScopedScript

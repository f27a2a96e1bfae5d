import Base128.Hex
import Base128.Text.Blank

/-! # Byte strings on a command line

`HexArgument.decode` is `parse_hex`. Digits may be dressed up for reading, so that
`0xE5 8E 26`, `e5:8e:26` and `e58e26` are the same bytes.
-/

namespace Base128.HexArgument

def isSeparator (c : Char) : Bool := c = ' ' || c = ':' || c = '_' || c = ','

/-- One mark is taken off. A second one counts as digits. -/
def unmarked : List Char → List Char
  | '0' :: 'x' :: rest => rest
  | '0' :: 'X' :: rest => rest
  | text => text

/-- The text without blanks around it, mark and separators. -/
def digits (argument : String) : List Char :=
  (unmarked (Text.trimmed argument.toList)).filter fun c => !isSeparator c

def decode (argument : String) : Except Hex.Fault Bytes := Hex.decode (digits argument)

end Base128.HexArgument

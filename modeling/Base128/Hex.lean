import Base128.Byte
import Base128.Text.Numeral
import Base128.Text.Quoted

/-! # Hexadecimal text

`Hex.encode`, `Hex.decode` and `Hex.Fault` follow `encode`, `decode` and `FromHexError` of
the library hex, version 0.4: lower case is written and both cases are read, an odd length
is refused before anything else, and a text is looked at **byte by byte** in its encoding
as UTF-8, so that a fault names a byte.
-/

namespace Base128.Hex

inductive Fault where
  | oddLength
  | notDigit (byte : UInt8) (position : Nat)
deriving DecidableEq, Repr

/-- A byte is shown as the character of that number. -/
def Fault.message : Fault → String
  | oddLength => "Odd number of digits"
  | notDigit byte position =>
    "Invalid character " ++ Text.quotedChar (Char.ofNat byte.toNat) ++ " at position "
      ++ Text.decimal position

def digitsOf (byte : UInt8) : List Char :=
  [Nat.digitChar (byte.toNat / 16), Nat.digitChar (byte.toNat % 16)]

def encode (bytes : Bytes) : String := String.ofList (bytes.flatMap digitsOf)

/-- The value of a digit, given as a byte of text. -/
def digit? (byte : UInt8) : Option UInt8 :=
  if 0x30 ≤ byte && byte ≤ 0x39 then some (byte - 0x30)
  else if 0x61 ≤ byte && byte ≤ 0x66 then some (byte - 0x61 + 10)
  else if 0x41 ≤ byte && byte ≤ 0x46 then some (byte - 0x41 + 10)
  else none

/-- Reads pairs of digits, the first of them at `position` of the text. -/
def decodePairs (position : Nat) : Bytes → Except Fault Bytes
  | [] => .ok []
  | [_] => .error .oddLength
  | high :: low :: rest =>
    match digit? high, digit? low with
    | none, _ => .error (.notDigit high position)
    | some _, none => .error (.notDigit low (position + 1))
    | some h, some l => (decodePairs (position + 2) rest).map ((h * 16 + l) :: ·)

def decode (text : List Char) : Except Fault Bytes :=
  let bytes := text.flatMap String.utf8EncodeChar
  if bytes.length % 2 = 1 then .error .oddLength else decodePairs 0 bytes

end Base128.Hex

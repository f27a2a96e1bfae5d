/-! # Bytes of a base-128 number

Each byte carries seven bits of the number, the lowest first, and a top bit that
says whether another byte follows.
-/

namespace Base128

abbrev Bytes := List UInt8

/-- The seven low bits of a byte. -/
def payload (byte : UInt8) : UInt64 := (byte &&& 0x7F).toUInt64

/-- A byte with its top bit clear ends the number it belongs to. -/
def isLast (byte : UInt8) : Bool := byte &&& 0x80 == 0

end Base128

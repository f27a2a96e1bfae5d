import Base128.Fault

/-! # Fields

A field is a value together with the place it was read from: `Uleb128Field`. -/

namespace Base128

/-- A decoded value, the position of its first byte, and the number of its bytes. -/
structure Field where
  offset : Nat
  length : Nat
  value : UInt64
deriving DecidableEq, Repr

namespace Field

/-- The field as seen from a stream in which the bytes start at `base`. -/
def moved (base : Nat) (field : Field) : Field :=
  { field with offset := field.offset + base }

def stop (field : Field) : Nat := field.offset + field.length

/-- The field as one line of a table. -/
def row (field : Field) : String :=
  Text.position field.offset
    ++ "  len=" ++ Text.leftAligned 2 (Text.decimal field.length)
    ++ " value=" ++ Text.decimal field.value.toNat
    ++ " (" ++ Text.hexadecimal field.value.toNat ++ ")"

end Field

end Base128

/-! # Placing a group in a 64-bit word

`placed?` is `shifted_group`. Past bit 63 there is no room for a group, and the tenth
one fits only in part. -/

namespace Base128

/-- From 64 on a shift has no meaning. -/
def lifted? (group : UInt64) (shift : UInt32) : Option UInt64 :=
  if shift < 64 then some (group <<< shift.toUInt64) else none

/-- `group` moved up without loss. A zero group loses nothing at any distance. -/
def placed? (group : UInt64) (shift : UInt32) : Option UInt64 :=
  if group = 0 then some 0
  else match lifted? group shift with
    | none => none
    | some bits => if bits >>> shift.toUInt64 = group then some bits else none

/-- The bits of `group` that still have room. -/
def placedLow (group : UInt64) (shift : UInt32) : UInt64 :=
  (lifted? group shift).getD 0

end Base128

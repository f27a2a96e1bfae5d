/-! # Decoder settings

`Settings` is `DecodeConfig`, and `Overflow` its `OverflowPolicy`. -/

namespace Base128

/-- Where a value has no room in 64 bits, it is refused or taken modulo `2 ^ 64`. -/
inductive Overflow where
  | reject
  | wrap
deriving DecidableEq, Repr

/-- By default an encoding may have any length, so zero padding is accepted. -/
structure Settings where
  overflow : Overflow := .reject
  maxLength : Option Nat := none
deriving DecidableEq, Repr

namespace Settings

def wrapping : Settings where
  overflow := .wrap

def withMaxLength (settings : Settings) (limit : Nat) : Settings :=
  { settings with maxLength := some limit }

/-- The limit on the length, if the byte at `index` lies beyond it. -/
def exceeded? (settings : Settings) (index : Nat) : Option Nat :=
  match settings.maxLength with
  | some limit => if limit ≤ index then some limit else none
  | none => none

end Settings

end Base128

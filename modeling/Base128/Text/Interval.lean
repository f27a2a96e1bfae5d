/-! # Sets of code points -/

namespace Base128.Text

/-- The code points from `first` to `last`, both included. -/
structure Interval where
  first : Nat
  last : Nat
deriving DecidableEq, Repr

def Interval.holds (intervals : List Interval) (c : Char) : Bool :=
  intervals.any fun interval => interval.first ≤ c.toNat && c.toNat ≤ interval.last

end Base128.Text

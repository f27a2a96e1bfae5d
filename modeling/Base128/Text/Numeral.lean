/-! # Numbers as text

The notations in which numbers are shown. -/

namespace Base128.Text

def decimal (n : Nat) : String := n.repr

def hexadecimal (n : Nat) : String :=
  "0x" ++ String.ofList (Nat.toDigits 16 n)

/-- Hexadecimal digits, filled up to at least four. -/
def position (n : Nat) : String :=
  let digits := Nat.toDigits 16 n
  "0x" ++ String.ofList (List.replicate (4 - digits.length) '0' ++ digits)

def leftAligned (width : Nat) (text : String) : String :=
  text ++ String.ofList (List.replicate (width - text.length) ' ')

def pluralEnding (n : Nat) : String := if n = 1 then "" else "s"

/-- A count with its noun, as in `1 byte` and `3 bytes`. -/
def counted (n : Nat) (noun : String) : String :=
  decimal n ++ " " ++ noun ++ pluralEnding n

theorem position_eq (n : Nat) :
    position n = "0x" ++ String.ofList ((Nat.toDigits 16 n).leftpad 4 '0') := rfl

theorem counted_eq (n : Nat) (noun : String) :
    counted n noun = n.repr ++ (" " ++ noun) ++ (if n = 1 then "" else "s") := by
  simp only [counted, decimal, pluralEnding, String.append_assoc]

end Base128.Text

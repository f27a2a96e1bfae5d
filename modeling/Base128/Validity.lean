import Base128.Cursor

/-! # Validity of a file

A file is valid when it holds nothing but complete values. `Validity.check` is `check`,
with `Totals.report` for the text of its success and `Finding.line` for that of its failure.
`Finding.diagnostic` is `diagnostic`.
-/

namespace Base128.Validity

/-- What a valid file holds, and the position behind its last value. -/
structure Totals where
  bytes : Nat
  values : Nat
  stop : Nat
deriving DecidableEq, Repr

/-- The first malformed value of a file, by the position where it starts. -/
structure Finding where
  start : Nat
  fault : Fault
deriving DecidableEq, Repr

def Totals.report (totals : Totals) : String :=
  "✓ Stream: " ++ Text.counted totals.bytes "byte" ++ "\n"
    ++ "✓ Values: " ++ Text.counted totals.values "value" ++ " decoded\n"
    ++ "✓ Terminated: last value ends at offset " ++ Text.position totals.stop ++ "\n"

def Finding.diagnostic (finding : Finding) : String :=
  let value := "value at offset " ++ Text.position finding.start
  match finding.fault with
  | .incomplete _ consumed =>
    value ++ " is truncated (" ++ Text.counted consumed "byte" ++ " without a terminator)"
  | .overflow offset => value ++ " overflows 64 bits at byte " ++ Text.position offset
  | .tooLong _ limit => value ++ " exceeds the " ++ Text.decimal limit ++ "-byte limit"
  | fault => fault.message

def Finding.line (finding : Finding) : String := "✗ Error: " ++ finding.diagnostic

/-- Reads on until the end of the stream or the first fault, behind `values` others. -/
def walk (total : Nat) (cursor : Cursor) (values : Nat) : Except Finding Totals :=
  if cursor.atEnd then .ok ⟨total, values, cursor.offset⟩
  else match h : cursor.read with
    | .error fault => .error ⟨cursor.offset, fault⟩
    | .ok (_, after) =>
      have := Cursor.length_of_read h
      walk total after (values + 1)
termination_by cursor.unread.length

def check (settings : Settings) (bytes : Bytes) : Except Finding Totals :=
  walk bytes.length (Cursor.ofBytes settings bytes) 0

end Base128.Validity

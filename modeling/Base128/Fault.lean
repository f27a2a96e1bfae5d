import Base128.Text.Numeral

/-! # Faults

Why a value could not be decoded, and where: `LebError`. An `offset` is a position in
the bytes that were read. `Fault.needsMore` is `is_incomplete`.
-/

namespace Base128

/-- A width to which a decoded value can be narrowed. -/
inductive Width where
  | bits32
  | bits64
deriving DecidableEq, Repr

namespace Width

def largest : Width → Nat
  | bits32 => 0xFFFFFFFF
  | bits64 => 0xFFFFFFFFFFFFFFFF

/-- The name of the width in messages. -/
def name : Width → String
  | bits32 => "u32"
  | bits64 => "usize"

end Width

/-- An overflow and a limit that is exceeded are told with the offending byte, the
others with the start of the value. -/
inductive Fault where
  | missingArgument (given : Nat)
  | incomplete (offset consumed : Nat)
  | overflow (offset : Nat)
  | tooLong (offset limit : Nat)
  | valueTooLarge (offset : Nat) (value : UInt64) (width : Width)
deriving DecidableEq, Repr

namespace Fault

/-- The bytes ended before the value did. -/
def needsMore : Fault → Bool
  | incomplete .. => true
  | _ => false

/-- The fault as seen from a stream in which the bytes start at `base`. -/
def rebase (base : Nat) : Fault → Fault
  | missingArgument given => missingArgument given
  | incomplete offset consumed => incomplete (offset + base) consumed
  | overflow offset => overflow (offset + base)
  | tooLong offset limit => tooLong (offset + base) limit
  | valueTooLarge offset value width => valueTooLarge (offset + base) value width

def message : Fault → String
  | missingArgument given =>
    "wrong number of arguments (given " ++ Text.decimal given ++ ", expected at least 1)"
  | incomplete offset consumed =>
    "ULEB128 sequence at offset " ++ Text.decimal offset
      ++ " did not contain a terminator (" ++ Text.decimal consumed ++ " bytes scanned)"
  | overflow offset => "ULEB128 value overflows 64 bits at offset " ++ Text.decimal offset
  | tooLong offset limit =>
    "ULEB128 encoding exceeded " ++ Text.decimal limit ++ "-byte limit at offset "
      ++ Text.decimal offset
  | valueTooLarge offset value width =>
    "ULEB128 value " ++ Text.decimal value.toNat ++ " at offset " ++ Text.decimal offset
      ++ " does not fit in " ++ width.name

end Fault

end Base128

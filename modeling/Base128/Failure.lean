import Base128.Fault
import Base128.Hex

/-! # Failures of a command

A command fails for one reason, which is told from the outside in: what was being done,
and then why it did not work. `Failure.chain` is the chain of an error of the library
anyhow, its contexts and its cause, and `Failure.message` the alternate form of the error,
with all of the chain in one line.
-/

namespace Base128

/-- Why a file could not be read. -/
inductive FileError where
  | notFound
  | permissionDenied
  | notDirectory
  | isDirectory
  | nameTooLong
  | other (reason : String)
deriving DecidableEq, Repr

def FileError.message : FileError → String
  | notFound => "No such file or directory (os error 2)"
  | permissionDenied => "Permission denied (os error 13)"
  | notDirectory => "Not a directory (os error 20)"
  | isDirectory => "Is a directory (os error 21)"
  | nameTooLong => "File name too long (os error 36)"
  | other reason => reason

/-- Why a command failed. Of an `invalid` file it has been said already what is wrong. -/
inductive Failure where
  | badHex (argument : String) (fault : Hex.Fault)
  | undecodable (fault : Fault)
  | skipPastEnd (skip total : Nat)
  | malformed (offset : Nat) (fault : Fault)
  | uninspected (path : String) (failure : Failure)
  | unreadable (path : String) (error : FileError)
  | invalid
deriving DecidableEq, Repr

namespace Failure

/-- The texts that tell the failure, the outermost first. -/
def chain : Failure → List String
  | badHex argument fault => ["invalid hex argument " ++ Text.quotedText argument, fault.message]
  | undecodable fault => ["cannot decode input", fault.message]
  | skipPastEnd skip total =>
    ["--skip " ++ Text.decimal skip ++ " is past the end of the input ("
      ++ Text.decimal total ++ " bytes)"]
  | malformed offset fault =>
    ["malformed ULEB128 value at offset " ++ Text.hexadecimal offset, fault.message]
  | uninspected path failure => ("cannot inspect " ++ path) :: failure.chain
  | unreadable path error => ["cannot read " ++ path, error.message]
  | invalid => ["validation failed"]

def message (failure : Failure) : String := String.intercalate ": " failure.chain

/-- The decoder's fault at the end of the chain. -/
def cause? : Failure → Option Fault
  | undecodable fault => some fault
  | malformed _ fault => some fault
  | uninspected _ failure => failure.cause?
  | _ => none

end Failure

end Base128

import Base128.Command.Respond

/-! # The program

Reads the file that an invocation is about, if there is one, and leaves the rest to
`respond`, which looks at no other file (`respond_congr`).
-/

namespace Base128

/-- The reason with the system's number `code`. Some numbers arrive with their
sign turned. -/
def FileError.ofCode (code : UInt32) (details : String) : FileError :=
  let number := if code < 0x80000000 then code else 0 - code
  if number = 2 then .notFound
  else if number = 13 then .permissionDenied
  else if number = 20 then .notDirectory
  else if number = 21 then .isDirectory
  else if number = 36 then .nameTooLong
  else .other (details ++ " (os error " ++ Text.decimal number.toNat ++ ")")

/-- Why a file could not be read, from the system's account of it. -/
def FileError.ofFailedRead : IO.Error → FileError
  | .noFileOrDirectory _ code details => .ofCode code details
  | .permissionDenied _ code details => .ofCode code details
  | .inappropriateType _ code details => .ofCode code details
  | .invalidArgument _ code details => .ofCode code details
  | .resourceExhausted _ code details => .ofCode code details
  | .noSuchThing _ code details => .ofCode code details
  | .hardwareFault code details => .ofCode code details
  | .resourceBusy code details => .ofCode code details
  | .unsupportedOperation code details => .ofCode code details
  | .otherError code details => .ofCode code details
  | error => .other (toString error)

/-- The file that `arguments` are about, if there is one. -/
def filesFor (arguments : List String) : IO Files := do
  match (Arguments.parse arguments).toOption.bind (·.command.path?) with
  | none => return fun _ => .error .notFound
  | some path =>
    let content ← (IO.FS.readBinFile path).toBaseIO
    match content with
    | .error error => return fun _ => .error (.ofFailedRead error)
    | .ok bytes => return fun _ => .ok bytes.toList

end Base128

def main (arguments : List String) : IO UInt32 := do
  let files ← Base128.filesFor arguments
  let outcome := Base128.respond files arguments
  (← IO.getStderr).putStr outcome.stderr
  (← IO.getStdout).putStr outcome.stdout
  return outcome.exit.toUInt32

import Base128.Listing
import Base128.Readout
import Base128.Validity

/-! # Invocations

What one use of the program is to do, and what comes of it. `Invocation.run` is `main`
behind the reading of arguments, and the three effects are the functions `run` of the three
commands. Whether everything is to be told is known to `main` and to the listing of a file,
and both write **at once** what they tell, in front of what is found later.
-/

namespace Base128

/-- The files at hand: the bytes under a path, or why they cannot be read. -/
abbrev Files := String → Except FileError Bytes

/-- What the program can do: decode the first of some byte strings in hexadecimal, list a
file from byte `skip` on, or check a file. -/
inductive Command where
  | decode (arguments : List String) (all : Bool)
  | inspect (path : String) (skip : Nat) (count : Option Nat) (json : Bool)
  | validate (path : String)
deriving DecidableEq, Repr

/-- The file that a command is about. -/
def Command.path? : Command → Option String
  | .decode .. => none
  | .inspect path .. => some path
  | .validate path => some path

structure Invocation where
  command : Command
  settings : Settings
  verbose : Bool
deriving DecidableEq, Repr

/-- What a command does: the lines that it tells on the way, what it shows, and its
failure. -/
structure Effect where
  notes : List String := []
  stdout : String := ""
  failure : Option Failure := none
deriving DecidableEq, Repr

/-- What is left of a run: the exit code and the two streams. -/
@[ext]
structure Outcome where
  exit : Nat
  stdout : String
  stderr : String
deriving DecidableEq, Repr

/-- The settings as they are told before a command begins. -/
def Settings.note (settings : Settings) : String :=
  let overflow := match settings.overflow with
    | .reject => "Reject"
    | .wrap => "Wrap"
  let maxLength := match settings.maxLength with
    | none => "None"
    | some limit => "Some(" ++ Text.decimal limit ++ ")"
  "config: overflow=" ++ overflow ++ ", max_len=" ++ maxLength

namespace Command

/-- The note on a file that has been read. -/
def readNote (path : String) (length skip : Nat) : String :=
  "read " ++ Text.decimal length ++ " bytes from " ++ path ++ ", starting at offset "
    ++ Text.decimal skip

def decodeEffect (settings : Settings) (arguments : List String) (all : Bool) : Effect :=
  match Readout.render settings all arguments with
  | .error failure => { failure := some failure }
  | .ok text => { stdout := text }

/-- The file is noted once it has been read, whether or not it can be listed. -/
def inspectEffect (files : Files) (settings : Settings) (verbose : Bool) (path : String)
    (skip : Nat) (count : Option Nat) (json : Bool) : Effect :=
  match files path with
  | .error error => { failure := some (.unreadable path error) }
  | .ok bytes =>
    let notes := if verbose then [readNote path bytes.length skip] else []
    match Listing.collect settings bytes skip count with
    | .error failure => { notes, failure := some (.uninspected path failure) }
    | .ok fields =>
      let listing :=
        if json then Listing.json fields ++ "\n" else Listing.text fields skip bytes.length
      { notes, stdout := listing }

/-- The line on the first malformed value is shown, and not told as the failure. -/
def validateEffect (files : Files) (settings : Settings) (path : String) : Effect :=
  match files path with
  | .error error => { failure := some (.unreadable path error) }
  | .ok bytes =>
    match Validity.check settings bytes with
    | .error finding => { stdout := finding.line ++ "\n", failure := some .invalid }
    | .ok totals => { stdout := totals.report }

def effect (files : Files) (settings : Settings) (verbose : Bool) : Command → Effect
  | .decode arguments all => decodeEffect settings arguments all
  | .inspect path skip count json => inspectEffect files settings verbose path skip count json
  | .validate path => validateEffect files settings path

end Command

/-- On the second stream the settings come first, and a failure last. -/
def Invocation.run (files : Files) (invocation : Invocation) : Outcome :=
  let settings := if invocation.verbose then [invocation.settings.note] else []
  let effect := invocation.command.effect files invocation.settings invocation.verbose
  match effect.failure with
  | none => ⟨0, effect.stdout, Text.lines (settings ++ effect.notes)⟩
  | some failure =>
    ⟨1, effect.stdout, Text.lines (settings ++ effect.notes ++ ["error: " ++ failure.message])⟩

end Base128

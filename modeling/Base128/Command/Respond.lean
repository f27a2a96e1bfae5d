import Base128.Command.Arguments

/-! # Answers of the program

`respond` is the whole program, from its arguments and the files at hand to the outcome.
The wording of `usage` is that of this library: clap makes a longer text of the same
commands and options, and ends with the same exit codes.
-/

namespace Base128

def usage : String :=
  Text.lines
    ["Usage: elfleb [OPTIONS] <COMMAND>",
     "",
     "Commands:",
     "  decode [--all] [HEX]...                              Decode a value from hex arguments",
     "  inspect [--skip <N>] [--count <N>] [--json] <FILE>   List every value of a file",
     "  validate <FILE>                                      Check that a file holds only values",
     "  help                                                 Print help",
     "",
     "Options:",
     "  --wrap           Discard bits beyond 64 instead of failing",
     "  --max-len <N>    Reject values encoded in more than N bytes",
     "  -v, --verbose    Print extra diagnostics to stderr",
     "  -h, --help       Print help",
     "  -V, --version    Print version"]

/-- Asking is no failure, and misuse is one of its own kind. -/
def Stop.outcome : Stop → Outcome
  | help => ⟨0, usage, ""⟩
  | version => ⟨0, "elfleb 0.1.0\n", ""⟩
  | misuse => ⟨2, "", usage⟩

def respond (files : Files) (arguments : List String) : Outcome :=
  match Arguments.parse arguments with
  | .error stop => stop.outcome
  | .ok invocation => invocation.run files

/-! ## One file is enough -/

section Files

variable {files others : Files}

theorem Command.effect_congr {command : Command}
    (h : ∀ path, command.path? = some path → files path = others path) (settings : Settings)
    (verbose : Bool) :
    command.effect files settings verbose = command.effect others settings verbose := by
  cases command with
  | decode arguments all => rfl
  | inspect path skip count json => simp only [effect, inspectEffect, h path rfl]
  | validate path => simp only [effect, validateEffect, h path rfl]

/-- **No other file is looked at** than the one that the command is about, so that it is
enough to read this one before. -/
theorem respond_congr {arguments : List String}
    (h : ∀ invocation, Arguments.parse arguments = .ok invocation →
      ∀ path, invocation.command.path? = some path → files path = others path) :
    respond files arguments = respond others arguments := by
  unfold respond
  cases hparse : Arguments.parse arguments with
  | error stop => rfl
  | ok invocation =>
    simp only [Invocation.run, Command.effect_congr (h invocation hparse)]

end Files

end Base128

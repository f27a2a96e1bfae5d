import Base128.Command.Invocation

/-! # Command line arguments

`Arguments.parse` finds the invocation that a list of arguments names, by the rules of the
library clap, version 4, for the flags, quantities and commands below. Arguments are taken
**from left to right**, and the first one that is wrong, or asks for help, decides. At one
level each flag and each quantity may be given once. Options that may stand at both levels
count where they stand last. The command `help` that clap adds is no level of its own: it
runs nothing, and `helpOn` answers it.
-/

namespace Base128

/-- Why nothing is run: something else was asked for, or the arguments are wrong. -/
inductive Stop where
  | help
  | version
  | misuse
deriving DecidableEq, Repr

namespace Arguments

/-- Where an argument stands: before the name of a command, or behind it. -/
inductive Level where
  | top
  | decode
  | inspect
  | validate
deriving DecidableEq, Repr

/-- An option without a value. -/
inductive Flag where
  | wrap
  | verbose
  | all
  | json
  | help
  | version
deriving DecidableEq, Repr

/-- An option with a number for a value. -/
inductive Quantity where
  | maxLength
  | skip
  | count
deriving DecidableEq, Repr

namespace Level

def flag? : Level → String → Option Flag
  | _, "wrap" => some .wrap
  | _, "verbose" => some .verbose
  | _, "help" => some .help
  | top, "version" => some .version
  | decode, "all" => some .all
  | inspect, "json" => some .json
  | _, _ => none

def letter? : Level → Char → Option Flag
  | _, 'v' => some .verbose
  | _, 'h' => some .help
  | top, 'V' => some .version
  | _, _ => none

def quantity? : Level → String → Option Quantity
  | _, "max-len" => some .maxLength
  | inspect, "skip" => some .skip
  | inspect, "count" => some .count
  | _, _ => none

def ofName? : String → Option Level
  | "decode" => some decode
  | "inspect" => some inspect
  | "validate" => some validate
  | _ => none

/-- Any number of byte strings may be given, but one file. -/
def admits (level : Level) (count : Nat) (word : String) : Bool :=
  match level with
  | top => false
  | decode => true
  | inspect | validate => count = 0 && !word.isEmpty

end Level

def digits? : List Char → Option Nat
  | [] => none
  | text => if text.all Char.isDigit then some (Nat.ofDigitChars 10 text 0) else none

/-- The number that decimal digits stand for, with or without a `+` in front, if 64 bits
hold it. -/
def number? (text : String) : Option Nat :=
  let digits := match text.toList with
    | '+' :: rest => rest
    | rest => rest
  (digits? digits).filter (· ≤ Width.bits64.largest)

/-- What one argument is. A flag that is not known is `none`, and so is the value of a
quantity that is to follow in the next argument. -/
inductive Piece where
  | word (text : String)
  | flags (flags : List (Option Flag))
  | quantity (quantity : Quantity) (value : Option String)
  | wordsOnly
deriving DecidableEq, Repr

def Piece.ofLong (level : Level) (name : String) (value : Option String) : Piece :=
  match level.quantity? name, value with
  | some key, value => .quantity key value
  | none, none => .flags [level.flag? name]
  | none, some _ => .flags [none]

/-- A single `-` is a word, and `--` makes words of all that follows. -/
def Piece.ofArgument (level : Level) (argument : String) : Piece :=
  match argument.toList with
  | ['-', '-'] => .wordsOnly
  | '-' :: '-' :: text =>
    let name := String.ofList (text.takeWhile (· ≠ '='))
    match text.dropWhile (· ≠ '=') with
    | [] => .ofLong level name none
    | _ :: value => .ofLong level name (some (String.ofList value))
  | '-' :: letter :: letters => .flags ((letter :: letters).map level.letter?)
  | _ => .word argument

/-- What has been given at one level. -/
structure Given where
  flags : List Flag := []
  maxLength : Option Nat := none
  skip : Option Nat := none
  count : Option Nat := none
  words : List String := []
deriving DecidableEq, Repr

namespace Given

def takeFlag (given : Given) : Option Flag → Except Stop Given
  | none => .error .misuse
  | some .help => .error .help
  | some .version => .error .version
  | some flag =>
    if given.flags.contains flag then .error .misuse
    else .ok { given with flags := flag :: given.flags }

def takeQuantity (given : Given) (quantity : Quantity) (value : String) : Except Stop Given :=
  match number? value, quantity, given with
  | some n, .maxLength, { maxLength := none, .. } => .ok { given with maxLength := some n }
  | some n, .skip, { skip := none, .. } => .ok { given with skip := some n }
  | some n, .count, { count := none, .. } => .ok { given with count := some n }
  | _, _, _ => .error .misuse

def takeWord (level : Level) (given : Given) (word : String) : Except Stop Given :=
  if level.admits given.words.length word then .ok { given with words := given.words ++ [word] }
  else .error .misuse

end Given

/-- The arguments behind the name of a command. -/
def takeAll (level : Level) (given : Given) : List String → Except Stop Given
  | [] => .ok given
  | argument :: rest =>
    match Piece.ofArgument level argument with
    | .word text => do takeAll level (← given.takeWord level text) rest
    | .flags flags => do takeAll level (← flags.foldlM Given.takeFlag given) rest
    | .quantity quantity (some value) => do takeAll level (← given.takeQuantity quantity value) rest
    | .quantity quantity none =>
      match rest with
      | [] => .error .misuse
      | value :: rest => do takeAll level (← given.takeQuantity quantity value) rest
    | .wordsOnly => rest.foldlM (Given.takeWord level) given

def command? (level : Level) (given : Given) : Option Command :=
  match level, given.words with
  | .decode, words => some (.decode words (given.flags.contains .all))
  | .inspect, [path] =>
    some (.inspect path (given.skip.getD 0) given.count (given.flags.contains .json))
  | .validate, [path] => some (.validate path)
  | _, _ => none

/-- The invocation from what stands before and behind the name of a command. -/
def assemble (level : Level) (before behind : Given) : Except Stop Invocation :=
  let holds (flag : Flag) : Bool := before.flags.contains flag || behind.flags.contains flag
  match command? level behind with
  | none => .error .misuse
  | some command =>
    let settings : Settings :=
      { overflow := if holds .wrap then .wrap else .reject
        maxLength := behind.maxLength <|> before.maxLength }
    .ok { command, settings, verbose := holds .verbose }

/-- Help may be asked for by name, for all of the program or for one command. -/
def helpOn : List String → Stop
  | [] => .help
  | [name] => if (Level.ofName? name).isSome || name = "help" then .help else .misuse
  | _ => .misuse

/-- The arguments up to the name of a command, and then those behind it. -/
def parseFrom (given : Given) : List String → Except Stop Invocation
  | [] => .error .misuse
  | argument :: rest =>
    match Piece.ofArgument .top argument with
    | .word name =>
      match Level.ofName? name with
      | some level => do assemble level given (← takeAll level {} rest)
      | none => .error (if name = "help" then helpOn rest else .misuse)
    | .flags flags => do parseFrom (← flags.foldlM Given.takeFlag given) rest
    | .quantity quantity (some value) => do parseFrom (← given.takeQuantity quantity value) rest
    | .quantity quantity none =>
      match rest with
      | [] => .error .misuse
      | value :: rest => do parseFrom (← given.takeQuantity quantity value) rest
    | .wordsOnly => .error .misuse

def parse (arguments : List String) : Except Stop Invocation := parseFrom {} arguments

end Arguments

end Base128

import Base128.Cursor
import Base128.Failure
import Base128.HexArgument

/-! # Readouts of bytes given by hand

`Readout.render` is the text of the command `decode`: the first value and what follows
it, or all values, one row for each. **Every** argument must be a byte string, although
only the first is decoded, and a stream that does not decode to its end has no table,
however many rows come before the fault.
-/

namespace Base128.Readout

/-- The first argument that is no byte string is to blame. -/
def buffers : List String → Except Failure (List Bytes)
  | [] => .ok []
  | argument :: arguments =>
    match HexArgument.decode argument with
    | .error fault => .error (.badHex argument fault)
    | .ok bytes => (buffers arguments).map (bytes :: ·)

/-- The text for one value, `consumed` bytes long, with `rest` behind it. -/
def front (value : UInt64) (consumed : Nat) (rest : Bytes) : String :=
  "value:     " ++ Text.decimal value.toNat ++ " (" ++ Text.hexadecimal value.toNat ++ ")\n"
    ++ "consumed:  " ++ Text.counted consumed "byte" ++ "\n"
    ++ "remainder: " ++ (if rest.isEmpty then "(empty)" else Hex.encode rest) ++ "\n"

/-- The rows of all items, each with its line end; the first fault takes the
place of them all. -/
def table : List Item → Except Failure String
  | [] => .ok ""
  | .error fault :: _ => .error (.undecodable fault)
  | .ok field :: items => (table items).map (field.row ++ "\n" ++ ·)

def render (settings : Settings) (all : Bool) (arguments : List String) :
    Except Failure String :=
  match buffers arguments with
  | .error failure => .error failure
  | .ok buffers =>
    match decodeFirst settings buffers with
    | .error fault => .error (.undecodable fault)
    | .ok (value, rest) =>
      let first := buffers.headD []
      if all then table (items settings first)
      else .ok (front value (first.length - rest.length) rest)

end Base128.Readout

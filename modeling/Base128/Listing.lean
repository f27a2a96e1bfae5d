import Base128.Cursor
import Base128.Failure
import Base128.Text.Lines

/-! # Listings

The values of a file, or of a stretch of it, with their places in the file.

* `Listing.collect` — `collect_records`: the fields from byte `skip` on, at most `count`.
* `Listing.text` — `render_text`: the fields as rows, with a summary below.
* `Listing.json` — what `to_string_pretty` of the library serde_json makes of the fields:
  two blanks to a level, one member to a line, in the order of their declaration.
-/

namespace Base128.Listing

/-- Moves items to their places in the file, from which `base` bytes had been
left out. A fault is told with `stop`, the place in the file behind the field
before it. -/
def gather (base stop : Nat) : List Item → Except Failure (List Field)
  | [] => .ok []
  | .error fault :: _ => .error (.malformed stop fault)
  | .ok field :: items =>
    let record := field.moved base
    (gather base record.stop items).map (record :: ·)

def selected (settings : Settings) (bytes : Bytes) : Option Nat → List Item
  | none => items settings bytes
  | some count => ((Cursor.ofBytes settings bytes).take count).1

/-- Values behind the last one asked for are not looked at. -/
def collect (settings : Settings) (bytes : Bytes) (skip : Nat) (count : Option Nat) :
    Except Failure (List Field) :=
  if bytes.length < skip then .error (.skipPastEnd skip bytes.length)
  else gather skip skip (selected settings (bytes.drop skip) count)

/-- The bytes that fields cover, when the first starts at `skip`. -/
def covered (fields : List Field) (skip : Nat) : Nat :=
  match fields.getLast? with
  | none => 0
  | some field => field.stop - skip

/-- Values shown, bytes covered, and bytes there were. -/
def summary (fields : List Field) (skip total : Nat) : String :=
  Text.counted fields.length "value" ++ ", " ++ Text.decimal (covered fields skip)
    ++ " of " ++ Text.decimal (total - skip) ++ " bytes decoded"

def text (fields : List Field) (skip total : Nat) : String :=
  Text.lines (fields.map Field.row ++ ["---", summary fields skip total])

def jsonObject (field : Field) : String :=
  "  \x7b\n    \"offset\": " ++ Text.decimal field.offset
    ++ ",\n    \"len\": " ++ Text.decimal field.length
    ++ ",\n    \"value\": " ++ Text.decimal field.value.toNat ++ "\n  \x7d"

def json : List Field → String
  | [] => "[]"
  | field :: fields =>
    "[\n" ++ String.intercalate ",\n" ((field :: fields).map jsonObject) ++ "\n]"

end Base128.Listing

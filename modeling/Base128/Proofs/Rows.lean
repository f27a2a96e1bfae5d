import Base128.Field
import Base128.Proofs.Numerals

/-! # Rows read back

A row shows the four numbers of a field in columns. These are only filled up, never cut, so
that a number too wide for its column **pushes the others on** and stays whole.

* `Row`, `Row.ofText?` — the four numbers of a row, each read in its base.
* `Row.ofText?_row` — they are those of the field that the row was made for.
* `Row.ofTable?`, `Row.ofTable?_lines` — a table of rows is read line by line.
-/

namespace Base128

open Text (EndsNumber filled numberBehind?)

/-- What a row tells: the value from its decimal digits, and `again` from the hexadecimal
ones behind it. -/
structure Row where
  offset : ℕ
  length : ℕ
  value : ℕ
  again : ℕ
deriving DecidableEq, Repr

namespace Row

/-- What the row of a field should tell. -/
def ofField (field : Field) : Row :=
  ⟨field.offset, field.length, field.value.toNat, field.value.toNat⟩

/-- Reads a row from left to right, each number behind its label. -/
def ofText? (text : String) : Option Row := do
  let (offset, text) ← numberBehind? 16 "0x" text
  let (length, text) ← numberBehind? 10 "  len=" text
  let (value, text) ← numberBehind? 10 "value=" (Text.unindented text)
  let (again, text) ← numberBehind? 16 " (0x" text
  if text = ")" then some ⟨offset, length, value, again⟩ else none

theorem ofField_injective : Function.Injective ofField := by
  intro field other h
  cases field
  cases other
  simpa [ofField, UInt64.toNat_inj] using h

/-- The row of a field, label by label. -/
theorem row_eq (field : Field) :
    field.row = "0x" ++ (filled 16 (4 - (Nat.toDigits 16 field.offset).length) field.offset ++
      ("  len=" ++ (filled 10 0 field.length ++
        (Text.blanksOf (2 - (Text.decimal field.length).length) ++ (" value=" ++
          (filled 10 0 field.value.toNat ++ (" (0x" ++
            (filled 16 0 field.value.toNat ++ ")")))))))) := by
  have hopen : " (0x" = " (" ++ "0x" := by decide
  simp only [Field.row, Text.leftAligned, Text.position_eq_filled, Text.hexadecimal_eq_filled,
    Text.decimal_eq_filled, Text.blanksOf, hopen, String.append_assoc]

/-- **A row tells its field**, however wide its numbers are. -/
theorem ofText?_row (field : Field) : ofText? field.row = some (ofField field) := by
  -- what stands behind each number but the last is no digit
  have hagain : EndsNumber 16 ")" := by decide
  have hvalue (again : String) : EndsNumber 10 (" (0x" ++ again) :=
    Text.endsNumber_append (by decide) again
  have hlength (padding : ℕ) (value : String) :
      EndsNumber 10 (Text.blanksOf padding ++ (" value=" ++ value)) :=
    Text.endsNumber_blanksOf_append padding (Text.endsNumber_append (by decide) value) (by decide)
  have hoffset (length : String) : EndsNumber 16 ("  len=" ++ length) :=
    Text.endsNumber_append (by decide) length
  have hindent (value : String) : Text.unindented (" value=" ++ value) = "value=" ++ value := by
    rw [← String.toList_inj]
    simp [Text.unindented]
  rw [row_eq, ofText?, Text.numberBehind?_append (by decide) le_rfl _ _ _ (hoffset _)]
  simp only [Option.bind_eq_bind, Option.bind_some]
  rw [Text.numberBehind?_append (by decide) (by decide) _ _ _ (hlength _ _)]
  simp only [Option.bind_some]
  rw [Text.unindented_blanksOf_append, hindent,
    Text.numberBehind?_append (by decide) (by decide) _ _ _ (hvalue _)]
  simp only [Option.bind_some]
  rw [Text.numberBehind?_append (by decide) le_rfl _ _ _ hagain]
  rfl

example : ofText? "0x12345  len=123 value=300 (0x12c)" = some ⟨0x12345, 123, 300, 300⟩ := by
  decide +kernel

/-! ## Tables -/

theorem mapM_ofText?_rows (fields : List Field) :
    (fields.map Field.row).mapM ofText? = some (fields.map ofField) := by
  have htold : ofText? ∘ Field.row = fun field => some (ofField field) := funext ofText?_row
  rw [List.mapM_map, htold]
  exact List.mapM_pure

theorem newline_notMem_row (field : Field) : '\n' ∉ field.row.toList := by
  simp [Field.row, Text.leftAligned, Text.newline_notMem_position, Text.newline_notMem_decimal,
    Text.newline_notMem_hexadecimal]

/-- What a table tells, if each of its lines is a row. -/
def ofTable? (text : String) : Option (List Row) := (Text.linesOf text).mapM ofText?

/-- **A table tells its fields.** -/
theorem ofTable?_lines (fields : List Field) :
    ofTable? (Text.lines (fields.map Field.row)) = some (fields.map ofField) := by
  have hrows : ∀ row ∈ fields.map Field.row, '\n' ∉ row.toList := by
    intro row hrow
    obtain ⟨field, -, rfl⟩ := List.mem_map.mp hrow
    exact newline_notMem_row field
  rw [ofTable?, Text.linesOf_lines hrows, mapM_ofText?_rows]

end Row

end Base128

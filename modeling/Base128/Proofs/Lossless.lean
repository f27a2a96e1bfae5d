import Base128.Proofs.Agreement
import Base128.Proofs.Rows

/-! # Listings lose nothing

A listing is made for people, in columns, or for programs, as JSON. Either way the fields
can be told from the text.

* `Listing.rows?`, `Listing.rows?_text` — a listing is read row by row down to the line
  below the rows, which none of them can be taken for.
* `Listing.objectFront?` — the numbers of a JSON object, and what stands behind it.
* `Listing.lossless` — so in both forms the text tells the fields.
-/

namespace Base128

open Text (EndsNumber filled numberBehind?)

namespace Listing

/-! ## Rows in a listing -/

/-- The rows of a listing: what its lines tell, down to the one below the rows. -/
def rows? (text : String) : Option (List Row) :=
  ((Text.linesOf text).takeWhile (· ≠ "---")).mapM Row.ofText?

theorem newline_notMem_summary (fields : List Field) (skip total : ℕ) :
    '\n' ∉ (summary fields skip total).toList := by
  have hcounted : '\n' ∉ (Text.counted fields.length "value").toList :=
    Text.newline_notMem_counted _ (by decide)
  simp [summary, hcounted, Text.newline_notMem_decimal]

/-- The lines of a listing are its rows, and two more below them. -/
theorem linesOf_text (fields : List Field) (skip total : ℕ) :
    Text.linesOf (text fields skip total) =
      fields.map Field.row ++ ["---", summary fields skip total] := by
  apply Text.linesOf_lines
  intro line hline
  rcases List.mem_append.mp hline with hrow | hbelow
  · obtain ⟨field, -, rfl⟩ := List.mem_map.mp hrow
    exact Row.newline_notMem_row field
  · rcases List.mem_pair.mp hbelow with rfl | rfl
    · decide
    · exact newline_notMem_summary fields skip total

/-- **A listing tells its fields.** -/
theorem rows?_text (fields : List Field) (skip total : ℕ) :
    rows? (text fields skip total) = some (fields.map Row.ofField) := by
  have habove : ∀ line ∈ fields.map Field.row, decide (line ≠ "---") = true := by
    intro line hline
    obtain ⟨field, -, rfl⟩ := List.mem_map.mp hline
    exact decide_eq_true field.row_ne
  have hrows : (Text.linesOf (text fields skip total)).takeWhile (· ≠ "---") =
      fields.map Field.row := by
    rw [linesOf_text, List.takeWhile_append_of_pos habove]
    simp
  rw [rows?, hrows, Row.mapM_ofText?_rows]

theorem text_inj (fields others : List Field) (skip total : ℕ) :
    text fields skip total = text others skip total ↔ fields = others := by
  constructor
  · intro h
    have htold : some (fields.map Row.ofField) = some (others.map Row.ofField) := by
      rw [← rows?_text fields skip total, h, rows?_text]
    exact List.map_injective_iff.mpr Row.ofField_injective (Option.some.inj htold)
  · rintro rfl
    rfl

/-! ## Objects -/

/-- Reads a JSON object at the front of a text: its three members in order, and what stands
behind it. -/
def objectFront? (text : String) : Option ((ℕ × ℕ × ℕ) × String) := do
  let (offset, text) ← numberBehind? 10 "  \x7b\n    \"offset\": " text
  let (length, text) ← numberBehind? 10 ",\n    \"len\": " text
  let (value, text) ← numberBehind? 10 ",\n    \"value\": " text
  let rest ← Text.after? "\n  \x7d" text
  some ((offset, length, value), rest)

/-- The object of a field, label by label, with something behind it. -/
theorem jsonObject_append (field : Field) (rest : String) :
    jsonObject field ++ rest =
      "  \x7b\n    \"offset\": " ++ (filled 10 0 field.offset ++
        (",\n    \"len\": " ++ (filled 10 0 field.length ++
          (",\n    \"value\": " ++ (filled 10 0 field.value.toNat ++
            ("\n  \x7d" ++ rest)))))) := by
  simp only [← Text.decimal_eq_filled]
  unfold jsonObject
  simp only [String.append_assoc]

/-- **An object tells its field**, whatever stands behind it. -/
theorem objectFront?_append (field : Field) (rest : String) :
    objectFront? (jsonObject field ++ rest) =
      some ((field.offset, field.length, field.value.toNat), rest) := by
  have hends {label : String}
      (h : label.toList.head?.any (fun c => !Text.isDigitOf 10 c) = true) (rest : String) :
      EndsNumber 10 (label ++ rest) := Text.endsNumber_append h rest
  rw [jsonObject_append, objectFront?,
    Text.numberBehind?_append (by decide) (by decide) _ _ _ (hends (by decide) _)]
  simp only [Option.bind_eq_bind, Option.bind_some]
  rw [Text.numberBehind?_append (by decide) (by decide) _ _ _ (hends (by decide) _)]
  simp only [Option.bind_some]
  rw [Text.numberBehind?_append (by decide) (by decide) _ _ _ (hends (by decide) _)]
  simp only [Option.bind_some, Text.after?_append]

/-- Objects at the front of a text are told apart, and so is what stands behind them. -/
theorem jsonObject_append_inj {field other : Field} {rest behind : String} :
    jsonObject field ++ rest = jsonObject other ++ behind ↔ field = other ∧ rest = behind := by
  constructor
  · intro h
    have htold := objectFront?_append field rest
    rw [h, objectFront?_append] at htold
    simp only [Option.some.injEq, Prod.mk.injEq, UInt64.toNat_inj] at htold
    obtain ⟨⟨hoffset, hlength, hvalue⟩, hrest⟩ := htold
    refine ⟨?_, hrest.symm⟩
    cases field
    cases other
    simp_all
  · rintro ⟨rfl, rfl⟩
    rfl

/-! ## Arrays -/

/-- The objects of an array with what closes it. -/
def jsonObjects (fields : List Field) : String :=
  String.intercalate ",\n" (fields.map jsonObject) ++ "\n]"

theorem jsonObjects_singleton (field : Field) :
    jsonObjects [field] = jsonObject field ++ "\n]" := by
  simp [jsonObjects]

theorem jsonObjects_cons_cons (field next : Field) (fields : List Field) :
    jsonObjects (field :: next :: fields) =
      jsonObject field ++ (",\n" ++ jsonObjects (next :: fields)) := by
  simp only [jsonObjects, List.map_cons, String.intercalate_cons_cons, String.append_assoc]

/-- What closes an array is not what stands between two objects. -/
theorem close_ne_between (text : String) : "\n]" ≠ ",\n" ++ text := by
  intro h
  have hhead := congrArg (fun text => text.toList.head?) h
  simp at hhead

theorem jsonObjects_inj {fields others : List Field} (hfields : fields ≠ [])
    (hothers : others ≠ []) (h : jsonObjects fields = jsonObjects others) : fields = others := by
  -- behind each object, one text closes the array just if the other one does
  induction fields generalizing others with
  | nil => exact absurd rfl hfields
  | cons field fields ih =>
    obtain ⟨other, others, rfl⟩ := List.exists_cons_of_ne_nil hothers
    cases fields with
    | nil =>
      cases others with
      | nil =>
        rw [jsonObjects_singleton, jsonObjects_singleton, jsonObject_append_inj] at h
        rw [h.1]
      | cons second others =>
        rw [jsonObjects_singleton, jsonObjects_cons_cons, jsonObject_append_inj] at h
        exact absurd h.2 (close_ne_between _)
    | cons next fields =>
      cases others with
      | nil =>
        rw [jsonObjects_singleton, jsonObjects_cons_cons, jsonObject_append_inj] at h
        exact absurd h.2.symm (close_ne_between _)
      | cons second others =>
        rw [jsonObjects_cons_cons, jsonObjects_cons_cons, jsonObject_append_inj,
          String.append_right_inj] at h
        rw [h.1, ih (by simp) (by simp) h.2]

/-- **Different fields, different JSON.** -/
theorem json_inj (fields others : List Field) : json fields = json others ↔ fields = others := by
  have hopen (field : Field) (fields : List Field) :
      json (field :: fields) = "[\n" ++ jsonObjects (field :: fields) := by
    simp only [json, jsonObjects, String.append_assoc]
  have hempty : ∀ field fields, json (field :: fields) ≠ json [] := by
    intro field fields h
    have hsecond := congrArg (fun text => text.toList[1]?) h
    simp [json] at hsecond
  constructor
  · intro h
    cases fields with
    | nil =>
      cases others with
      | nil => rfl
      | cons other others => exact absurd h.symm (hempty other others)
    | cons field fields =>
      cases others with
      | nil => exact absurd h (hempty field fields)
      | cons other others =>
        rw [hopen, hopen, String.append_right_inj] at h
        exact jsonObjects_inj (by simp) (by simp) h
  · rintro rfl
    rfl

/-! ## Both forms -/

/-- **Nothing is lost.** Every row, read number by number, tells the position, the length
and the value of its field, and the value once more, whether the numbers fit their columns
or not. A listing is its rows in order, above a line that is no row, so from the same start
on and with the same total two listings have the same text only if they have the same
fields. Neither do two JSON arrays. -/
theorem lossless :
    (∀ field : Field, Row.ofText? field.row =
      some ⟨field.offset, field.length, field.value.toNat, field.value.toNat⟩) ∧
    (∀ fields skip total, rows? (text fields skip total) = some (fields.map Row.ofField)) ∧
    (∀ fields others skip total,
      text fields skip total = text others skip total ↔ fields = others) ∧
    (∀ fields others, json fields = json others ↔ fields = others) :=
  ⟨Row.ofText?_row, rows?_text, text_inj, json_inj⟩

end Listing

end Base128

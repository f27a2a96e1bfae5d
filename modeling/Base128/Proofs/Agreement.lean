import Base128.Proofs.Course

/-! # All walkers agree

A stream can be printed as a table, listed, validated, or taken as a list of
values. On one stream these **all succeed or all fail**, on the same values or
with the same fault at the same place.

* `render_all` — a table decodes the first value before it walks the stream,
  and that makes no difference but for an empty stream.
* `walkers_agree` — the agreement, with what each of them shows.
-/

namespace Base128

open Validity (Finding)

variable {settings : Settings} {bytes : Bytes} {argument : String}

/-! ## From commands to walks -/

theorem buffers_singleton (h : HexArgument.decode argument = .ok bytes) :
    Readout.buffers [argument] = .ok [bytes] := by
  simp [Readout.buffers, h, Except.map]

/-- The table of a stream that is not empty is that of its items. -/
theorem render_all (h : HexArgument.decode argument = .ok bytes) (hne : bytes ≠ []) :
    Readout.render settings true [argument] = Readout.table (items settings bytes) := by
  unfold Readout.render
  rw [buffers_singleton h]
  cases hdecode : decode settings bytes with
  | error fault =>
    -- the first value fails by itself as it does among the items
    rw [items_of_error hne hdecode]
    simp [decodeFirst, hdecode, Readout.table]
  | ok result => simp [decodeFirst, hdecode]

/-- An empty stream has no first value. -/
theorem render_nil (h : HexArgument.decode argument = .ok []) (all : Bool) :
    Readout.render settings all [argument] = .error (.undecodable (.incomplete 0 0)) := by
  unfold Readout.render
  rw [buffers_singleton h]
  simp [decodeFirst, decode_nil]

/-- A row starts with a position, so it is not the line below the rows. -/
theorem Field.row_ne (field : Field) : field.row ≠ "---" := by
  intro h
  have hhead := congrArg (fun text => text.toList.head?) h
  simp [Field.row, Text.position] at hhead

theorem separator_notMem_rows (fields : List Field) : "---" ∉ fields.map Field.row := by
  intro h
  rcases List.mem_map.mp h with ⟨field, -, hrow⟩
  exact field.row_ne hrow

theorem text_eq (fields : List Field) (skip total : ℕ) :
    Listing.text fields skip total =
      Text.lines (fields.map Field.row) ++
        Text.lines ["---", Listing.summary fields skip total] := by
  rw [Listing.text, Text.lines_append]

/-! ## The agreement -/

/-- **Agreement.** All walks over a stream succeed, or all fail. If they succeed,
the table is the rows of the listing, without what stands below them; the values
are those of the listing, and validation counts as many. If they fail, they carry
the same fault, and validation names the place that the listing names. On an
empty stream there is nothing to fail at, but also no first value to decode. -/
theorem walkers_agree (settings : Settings) (h : HexArgument.decode argument = .ok bytes) :
    (bytes ≠ [] →
      (∃ fields,
        Listing.collect settings bytes 0 none = .ok fields ∧
        Readout.render settings true [argument] = .ok (Text.lines (fields.map Field.row)) ∧
        Listing.text fields 0 bytes.length =
          Text.lines (fields.map Field.row) ++
            Text.lines ["---", Listing.summary fields 0 bytes.length] ∧
        "---" ∉ fields.map Field.row ∧
        Validity.check settings bytes = .ok ⟨bytes.length, fields.length, bytes.length⟩ ∧
        (settings = {} → values bytes = .ok (fields.map Field.value))) ∨
      ∃ start fault,
        Listing.collect settings bytes 0 none = .error (.malformed start fault) ∧
        (Failure.malformed start fault).chain =
          ["malformed ULEB128 value at offset " ++ Text.hexadecimal start, fault.message] ∧
        Readout.render settings true [argument] = .error (.undecodable fault) ∧
        Validity.check settings bytes = .error ⟨start, fault⟩ ∧
        (⟨start, fault⟩ : Finding).line = "✗ Error: " ++ (⟨start, fault⟩ : Finding).diagnostic ∧
        (settings = {} → values bytes = .error fault)) ∧
    (bytes = [] →
      Listing.collect settings bytes 0 none = .ok [] ∧
      Validity.check settings bytes = .ok ⟨0, 0, 0⟩ ∧
      values bytes = .ok [] ∧
      ∀ all, Readout.render settings all [argument] =
        .error (.undecodable (.incomplete 0 0))) := by
  constructor
  · intro hne
    -- the course of the stream says what each walk gives
    rcases exists_course (Cursor.ofBytes settings bytes) with ⟨fields, finding, hcourse⟩
    have hcollect := Course.collect_eq (Nat.zero_le bytes.length) hcourse
    rw [hcollect, hcourse.check_eq, render_all h hne, items, hcourse.table_eq rfl]
    cases finding with
    | none =>
      rw [funext Field.moved_zero, List.map_id']
      refine Or.inl ⟨fields, rfl, rfl, text_eq fields 0 bytes.length,
        separator_notMem_rows fields, rfl, ?_⟩
      rintro rfl
      exact hcourse.values_eq rfl
    | some found =>
      refine Or.inr ⟨found.start, found.fault, rfl, rfl, rfl, rfl, rfl, ?_⟩
      rintro rfl
      exact hcourse.values_eq rfl
  · rintro rfl
    have hcourse (settings : Settings) : Course (Cursor.ofBytes settings []) [] none :=
      .finished rfl
    refine ⟨?_, (hcourse settings).check_eq, (hcourse {}).values_eq rfl, render_nil h⟩
    exact Course.collect_eq (Nat.zero_le _) (hcourse settings)

/-- A stream with a value and a half, written with all that may stand around and
between digits. -/
theorem walkers_agree_truncated :
    HexArgument.decode " 0xE5 8E:26_80 " = .ok [0xE5, 0x8E, 0x26, 0x80] ∧
      Listing.collect {} [0xE5, 0x8E, 0x26, 0x80] 0 none =
        .error (.malformed 3 (.incomplete 3 1)) ∧
      Readout.render {} true [" 0xE5 8E:26_80 "] = .error (.undecodable (.incomplete 3 1)) ∧
      Validity.check {} [0xE5, 0x8E, 0x26, 0x80] = .error ⟨3, .incomplete 3 1⟩ ∧
      values [0xE5, 0x8E, 0x26, 0x80] = .error (.incomplete 3 1) := by
  have hargument : HexArgument.decode " 0xE5 8E:26_80 " = .ok [0xE5, 0x8E, 0x26, 0x80] := by
    decide +kernel
  have hlisting : Listing.collect {} [0xE5, 0x8E, 0x26, 0x80] 0 none =
      .error (.malformed 3 (.incomplete 3 1)) := by
    decide +kernel
  rcases (walkers_agree {} hargument).1 (by decide) with ⟨fields, hcollect, -⟩ |
    ⟨start, fault, hcollect, -, hrender, hcheck, -, hvalues⟩
  · rw [hlisting] at hcollect
    simp at hcollect
  · rw [hlisting] at hcollect
    obtain ⟨rfl, rfl⟩ := Failure.malformed.inj (Except.error.inj hcollect)
    exact ⟨hargument, hlisting, hrender, hcheck, hvalues rfl⟩

end Base128

import Base128.Proofs.Course
import Base128.Proofs.Reader

/-! # Commands with checked positions

The commands are written once more, on a reader with checked positions. A command takes
sums, differences, slices and elements of its own, and each of them is checked where it
is taken.

* `Checked.check`, `Checked.listing`, `Checked.render` — checking a file, listing it,
  and showing arguments.
* `Reader.offset_lt_of_readField` — a read that is let go on moves the position, so the
  loops of the commands end.
* `Reader.At.walk_eq`, `Reader.At.gather_eq`, `Reader.At.table_eq` — each loop keeps the
  reader in its buffer and its counts within a word, so that **it does not trap**, and
  makes of the items what the library makes of them.
-/

namespace Base128

open Validity (Finding Totals)

namespace Reader

/-- The number of bytes left to read. -/
def left (reader : Reader) : ℕ := reader.buffer.length - reader.offset

variable {reader after : Reader}

/-- A value takes up some bytes, or the read would not have gone on. -/
theorem offset_lt_of_readField {field : Field}
    (h : reader.readField = .ok (.ok field, after)) :
    after.buffer = reader.buffer ∧ reader.offset < after.offset := by
  rcases readField_cases h with ⟨fault, hfault, -⟩ | ⟨length, value, hlength, -, rfl⟩
  · simp at hfault
  · refine ⟨rfl, ?_⟩
    show reader.offset < reader.offset + length
    omega

theorem left_of_readField {field : Field} (hend : reader.atEnd = false)
    (h : reader.readField = .ok (.ok field, after)) : after.left < reader.left := by
  rcases offset_lt_of_readField h with ⟨hbuffer, hoffset⟩
  rw [atEnd, decide_eq_false_iff_not, not_le] at hend
  rw [left, left, hbuffer]
  omega

theorem left_of_read {value : UInt64} (hend : reader.atEnd = false)
    (h : reader.read = .ok (.ok value, after)) : after.left < reader.left := by
  rcases Checked.exists_of_bind_eq_ok h with ⟨⟨item, moved⟩, hread, hdone⟩
  obtain ⟨hvalue, rfl⟩ := Prod.mk.inj (Except.ok.inj hdone)
  cases item with
  | error fault => simp [Except.map] at hvalue
  | ok field => exact left_of_readField hend hread

theorem left_of_next {field : Field} (h : reader.next = .ok (some (.ok field, after))) :
    after.left < reader.left := by
  unfold next at h
  split_ifs at h with hover
  · simp at h
  · rcases Checked.exists_of_bind_eq_ok h with ⟨⟨item, moved⟩, hread, hdone⟩
    obtain ⟨rfl, rfl⟩ := Prod.mk.inj (Option.some.inj (Except.ok.inj hdone))
    rw [Bool.or_eq_true, not_or, Bool.not_eq_true, Bool.not_eq_true] at hover
    have hless : moved.left < reader.left := left_of_readField hover.2 hread
    exact hless

end Reader

namespace Checked

/-! ## Checking a file -/

/-- Reads values until the end of the buffer or the first fault, and counts them. -/
def walk (reader : Reader) (values : ℕ) : Checked (Except Finding Totals) :=
  if hend : reader.atEnd = true then
    return .ok ⟨reader.buffer.length, values, reader.offset⟩
  else match h : reader.read with
    | .error trap => .error trap
    | .ok (.error fault, _) => return .error ⟨reader.offset, fault⟩
    | .ok (.ok _, after) => do
      have := Reader.left_of_read (Bool.eq_false_iff.mpr hend) h
      let values ← add values 1
      walk after values
termination_by reader.left

section Walk

variable {reader after : Reader}

theorem walk_of_error {fault : Fault} (hend : ¬ reader.atEnd = true)
    (h : reader.read = .ok (.error fault, after)) (values : ℕ) :
    walk reader values = .ok (.error ⟨reader.offset, fault⟩) := by
  rw [walk, dif_neg hend]
  split <;> simp_all

theorem walk_of_ok {value : UInt64} (hend : ¬ reader.atEnd = true)
    (h : reader.read = .ok (.ok value, after)) (values : ℕ) :
    walk reader values = add values 1 >>= walk after := by
  rw [walk, dif_neg hend]
  split <;> simp_all

end Walk

/-- The totals of `bytes`, or the first value that does not decode. -/
def check (settings : Settings) (bytes : Bytes) : Checked (Except Finding Totals) :=
  walk (Reader.ofBytes settings bytes) 0

/-! ## Listing a file -/

/-- Places at most `limit` items in the file, from which `base` bytes had been left out.
The place behind a field is kept for the fault that may follow. -/
def gather (base stop : ℕ) : ℕ → Reader → Checked (Except Failure (List Field))
  | 0, _ => return .ok []
  | limit + 1, reader => do
    match ← reader.next with
    | none => return .ok []
    | some (.error fault, _) => return .error (.malformed stop fault)
    | some (.ok field, after) =>
      let offset ← add field.offset base
      let stop ← add offset field.length
      let records ← gather base stop limit after
      return records.map ({ field with offset } :: ·)

/-- The fields of `bytes` from byte `skip` on. Where no `count` is given, it is the
largest word. -/
def collect (settings : Settings) (bytes : Bytes) (skip : ℕ) (count : Option ℕ) :
    Checked (Except Failure (List Field)) :=
  if bytes.length < skip then return .error (.skipPastEnd skip bytes.length)
  else do
    let stretch ← suffix bytes skip
    gather skip skip (count.getD (wordSize - 1)) (Reader.ofBytes settings stretch)

/-- The number of bytes that fields cover, when the first starts at `skip`. -/
def covered (fields : List Field) (skip : ℕ) : Checked ℕ :=
  match fields.getLast? with
  | none => return 0
  | some field => do
    let stop ← add field.offset field.length
    sub stop skip

/-- The fields as rows, and a summary below a line. -/
def text (fields : List Field) (skip total : ℕ) : Checked String := do
  let decoded ← covered fields skip
  let available ← sub total skip
  let summary := Text.counted fields.length "value" ++ ", " ++ Text.decimal decoded
    ++ " of " ++ Text.decimal available ++ " bytes decoded"
  return Text.lines (fields.map Field.row ++ ["---", summary])

/-- The fields of a file, collected and then shown as text. -/
def listing (settings : Settings) (bytes : Bytes) (skip : ℕ) (count : Option ℕ) :
    Checked (Except Failure String) := do
  match ← collect settings bytes skip count with
  | .error failure => return .error failure
  | .ok fields =>
    let shown ← text fields skip bytes.length
    return .ok shown

/-! ## Showing arguments -/

/-- Decodes the first of `buffers`, if there is one. -/
def decodeFirst (settings : Settings) (buffers : List Bytes) :
    Checked (Except Fault (UInt64 × Bytes)) :=
  match buffers with
  | [] => return .error (.missingArgument 0)
  | bytes :: _ => decode settings bytes

/-- The rows of all items, each with its line end. -/
def table (reader : Reader) : Checked (Except Failure String) :=
  match h : reader.next with
  | .error trap => .error trap
  | .ok none => return .ok ""
  | .ok (some (.error fault, _)) => return .error (.undecodable fault)
  | .ok (some (.ok field, after)) => do
    have := Reader.left_of_next h
    let rows ← table after
    return rows.map (field.row ++ "\n" ++ ·)
termination_by reader.left

section Table

variable {reader after : Reader}

theorem table_of_none (h : reader.next = .ok none) : table reader = .ok (.ok "") := by
  rw [table]
  split <;> simp_all

theorem table_of_error {fault : Fault} (h : reader.next = .ok (some (.error fault, after))) :
    table reader = .ok (.error (.undecodable fault)) := by
  rw [table]
  split <;> simp_all

theorem table_of_ok {field : Field} (h : reader.next = .ok (some (.ok field, after))) :
    table reader = table after >>= fun rows => .ok (rows.map (field.row ++ "\n" ++ ·)) := by
  rw [table]
  split <;> simp_all

end Table

/-- The text for a list of arguments. The first buffer is taken as an element only
after it was decoded. -/
def render (settings : Settings) (all : Bool) (arguments : List String) :
    Checked (Except Failure String) :=
  match Readout.buffers arguments with
  | .error failure => return .error failure
  | .ok buffers => do
    match ← decodeFirst settings buffers with
    | .error fault => return .error (.undecodable fault)
    | .ok (value, rest) =>
      let bytes ← first buffers
      if all then table (Reader.ofBytes settings bytes)
      else
        let consumed ← sub bytes.length rest.length
        return .ok (Readout.front value consumed rest)

end Checked

/-! ## The loops keep the invariant -/

/-- An item that is a field ends where the cursor goes on. -/
theorem Cursor.stop_of_next {cursor after : Cursor} {field : Field}
    (h : cursor.next = some (.ok field, after)) : field.stop = after.offset := by
  rcases cursor.next_cases with ⟨-, hnext⟩ | ⟨-, -, cause, -, hnext⟩ |
    ⟨-, value, rest, -, hnext⟩
  · rw [hnext] at h
    simp at h
  · rw [hnext] at h
    simp at h
  · rw [hnext] at h
    obtain ⟨hfield, rfl⟩ := Prod.mk.inj (Option.some.inj h)
    rw [← Except.ok.inj hfield]
    rfl

namespace Reader.At

variable {bytes : Bytes} {cursor : Cursor} {reader : Reader}

/-- There are no more values than bytes before the reader, so they can be counted. -/
theorem walk_eq (h : reader.At bytes cursor) (hbytes : bytes.length < Checked.wordSize)
    {values : ℕ} (hvalues : values ≤ cursor.offset) :
    Checked.walk reader values = .ok (Validity.walk bytes.length cursor values) := by
  induction cursor using Cursor.walk_induction generalizing reader values with
  | finished cursor hunread =>
    have hend : cursor.atEnd = true := Cursor.atEnd_iff.mpr hunread
    rw [Checked.walk, Validity.walk, dif_pos (h.atEnd_eq.trans hend), if_pos hend, h.offset_eq,
      h.buffer_eq, Checked.pure_eq]
  | stopped cursor fault hunread hdecode =>
    rw [Course.walk_of_error hunread hdecode,
      Checked.walk_of_error (h.not_atEnd hunread) (h.read_of_error hbytes hdecode), h.offset_eq]
  | behind cursor value rest hdecode ih =>
    have hless := length_of_decode hdecode
    have hlength := h.offset_add_length
    have hadd : Checked.add values 1 = .ok (values + 1) := by
      apply Checked.add_eq
      omega
    rw [Course.walk_of_ok hdecode,
      Checked.walk_of_ok (h.not_atEnd (ne_nil_of_decode hdecode)) (h.read_of_ok hbytes hdecode),
      hadd, Checked.ok_bind]
    apply ih (h.skipTo hdecode)
    rw [Cursor.skipTo_offset]
    omega

/-- Fields end in the buffer, so their places in the file can be summed. -/
theorem gather_eq (h : reader.At bytes cursor) {base : ℕ}
    (hbase : base + bytes.length < Checked.wordSize) (stop limit : ℕ) :
    Checked.gather base stop limit reader =
      .ok (Listing.gather base stop (cursor.take limit).1) := by
  induction limit generalizing reader cursor stop with
  | zero => rfl
  | succ limit ih =>
    rw [Checked.gather, Cursor.take]
    rcases h.next (by omega) with ⟨hnone, hchecked⟩ | ⟨item, after, moved, hsome, hchecked, hmoved⟩
    · rw [hnone, hchecked]
      rfl
    · rw [hsome, hchecked]
      cases item with
      | error fault => rfl
      | ok field =>
        have hstop := Cursor.stop_of_next hsome
        have hle := hmoved.offset_add_length
        rw [Field.stop] at hstop
        have hoffset : Checked.add field.offset base = .ok (field.offset + base) := by
          apply Checked.add_eq
          omega
        have hsum : Checked.add (field.offset + base) field.length =
            .ok (field.offset + base + field.length) := by
          apply Checked.add_eq
          omega
        simp only [Checked.ok_bind, hoffset, hsum, ih hmoved]
        rfl

/-- The rows of a reader are those of the items behind its cursor. -/
theorem table_eq (h : reader.At bytes cursor) (hbytes : bytes.length < Checked.wordSize) :
    Checked.table reader = .ok (Readout.table cursor.exhaust.1) := by
  -- each item uses up some of what is pending
  induction hpending : cursor.pending using Nat.strongRecOn generalizing reader cursor with
  | ind pending ih =>
    rcases h.next hbytes with ⟨hnone, hchecked⟩ | ⟨item, after, moved, hsome, hchecked, hmoved⟩
    · rw [Cursor.exhaust_of_next_eq_none hnone, Checked.table_of_none hchecked, Readout.table]
    · have hless := Cursor.pending_of_next hsome
      rw [Cursor.exhaust_of_next_eq_some hsome]
      cases item with
      | error fault => rw [Checked.table_of_error hchecked, Readout.table]
      | ok field =>
        rw [Checked.table_of_ok hchecked, ih after.pending (by omega) hmoved rfl, Checked.ok_bind,
          Readout.table]

end Reader.At

end Base128

import Base128.Proofs.Checked
import Base128.Proofs.Fused
import Base128.Proofs.Malformed

/-! # Reading with checked positions

A cursor keeps the bytes behind it, so it cannot stand outside of its stream. A reader
keeps the whole buffer and a position, and each of its operations slices the buffer at
that position: nothing but the way it is used keeps the two together.

* `Reader` — a buffer, and a position in it, with the operations of a cursor. Every
  sum and every slice is checked, and so is the length of what was read.
* `Reader.At` — the invariant: the position lies in the buffer, and the reader sees
  what the cursor sees.
* `Reader.At.call` — a call does not trap, answers what the cursor answers, and
  **keeps the invariant**; by `Reader.At.answered` so does any number of calls.
* `Cursor.place_le_of_answered` — every fault that is answered names a position in
  the buffer.
-/

namespace Base128

/-- A place in a buffer. -/
structure Reader where
  buffer : Bytes
  /-- The position of the next byte to read. -/
  offset : ℕ
  settings : Settings
  /-- The sequence of items has ended with a fault. -/
  ended : Bool
deriving DecidableEq, Repr

/-- An answer made from the outcome of a direct read. -/
def Answer.ofResult {α : Type} (answer : α → Answer) : Except Fault α → Answer
  | .error cause => .fault cause
  | .ok result => answer result

namespace Reader

/-- A reader before the first of `bytes`. -/
def ofBytes (settings : Settings) (bytes : Bytes) : Reader := ⟨bytes, 0, settings, false⟩

/-- What the reader sees, without what it has read. -/
def cursor (reader : Reader) : Cursor where
  offset := reader.offset
  unread := reader.buffer.drop reader.offset
  settings := reader.settings
  ended := reader.ended

/-! ## The operations -/

/-- The bytes from the position on. -/
def remaining (reader : Reader) : Checked Bytes := Checked.suffix reader.buffer reader.offset

/-- No bytes are left to read. -/
def atEnd (reader : Reader) : Bool := decide (reader.buffer.length ≤ reader.offset)

/-- The next value with its place. A fault is told with its position in the buffer, and
a value has some length. -/
def readField (reader : Reader) : Checked (Item × Reader) := do
  let bytes ← reader.remaining
  match ← Checked.readFront reader.settings bytes with
  | .error fault =>
    let fault ← Checked.rebase reader.offset fault
    return (.error fault, reader)
  | .ok reading =>
    Checked.require (1 ≤ reading.length)
    let offset ← Checked.add reader.offset reading.length
    return (.ok ⟨reader.offset, reading.length, reading.value⟩, { reader with offset })

/-- The next value. -/
def read (reader : Reader) : Checked (Except Fault UInt64 × Reader) := do
  let (item, after) ← reader.readField
  return (item.map Field.value, after)

/-- The next value, if it fits `width`. If it does not, the position is set back to
where it was before. -/
def readNarrow (reader : Reader) (width : Width) : Checked (Except Fault UInt64 × Reader) := do
  let (item, after) ← reader.readField
  match item with
  | .error fault => return (.error fault, after)
  | .ok field =>
    if field.value.toNat ≤ width.largest then return (.ok field.value, after)
    else return (.error (.valueTooLarge field.offset field.value width),
      { after with offset := reader.offset })

/-- The next item, and the reader after it. -/
def next (reader : Reader) : Checked (Option (Item × Reader)) :=
  if reader.ended || reader.atEnd then return none
  else do
    let (item, after) ← reader.readField
    return some (item, { after with ended := !item.isOk })

/-- The answer to a call, and the reader after it. -/
def call (reader : Reader) : Call → Checked (Answer × Reader)
  | .read => do
    let (result, after) ← reader.read
    return (.ofResult .value result, after)
  | .readField => do
    let (result, after) ← reader.readField
    return (.ofResult .field result, after)
  | .readNarrow width => do
    let (result, after) ← reader.readNarrow width
    return (.ofResult .value result, after)
  | .next => do
    match ← reader.next with
    | none => return (.ended, reader)
    | some (item, after) => return (.ofResult .field item, after)

/-- Calls made one after another, each with its answer, and the reader behind them. -/
def answered (reader : Reader) : List Call → Checked (List (Call × Answer) × Reader)
  | [] => return ([], reader)
  | call :: calls => do
    let (answer, after) ← reader.call call
    let (log, last) ← after.answered calls
    return ((call, answer) :: log, last)

/-- **What a read of a field does.** It fails and changes nothing, or it gives a field of
some length and moves the position over it. -/
theorem readField_cases {reader after : Reader} {item : Item}
    (h : reader.readField = .ok (item, after)) :
    (∃ fault, item = .error fault ∧ after = reader) ∨
      ∃ length value, 1 ≤ length ∧ item = .ok ⟨reader.offset, length, value⟩ ∧
        after = { reader with offset := reader.offset + length } := by
  rcases Checked.exists_of_bind_eq_ok h with ⟨bytes, -, hread⟩
  rcases Checked.exists_of_bind_eq_ok hread with ⟨outcome, -, hmade⟩
  cases outcome with
  | error fault =>
    rcases Checked.exists_of_bind_eq_ok hmade with ⟨moved, -, hfault⟩
    obtain ⟨rfl, rfl⟩ := Prod.mk.inj (Except.ok.inj hfault)
    exact Or.inl ⟨moved, rfl, rfl⟩
  | ok reading =>
    rcases Checked.exists_of_bind_eq_ok hmade with ⟨⟨⟩, hrequire, hmoved⟩
    rcases Checked.exists_of_bind_eq_ok hmoved with ⟨offset, hadd, hdone⟩
    obtain rfl := Checked.eq_add_of_add hadd
    obtain ⟨rfl, rfl⟩ := Prod.mk.inj (Except.ok.inj hdone)
    exact Or.inr ⟨_, _, Checked.of_require hrequire, rfl, rfl⟩

/-! ## The invariant -/

/-- The reader has its position in `bytes`, and sees what `cursor` sees. -/
structure At (bytes : Bytes) (cursor : Cursor) (reader : Reader) : Prop where
  buffer_eq : reader.buffer = bytes
  offset_le : reader.offset ≤ bytes.length
  cursor_eq : reader.cursor = cursor

/-- The reader with nothing but `rest` left to read. -/
def skipTo (reader : Reader) (rest : Bytes) : Reader :=
  { reader with offset := reader.offset + (reader.cursor.unread.length - rest.length) }

theorem At.ofBytes (settings : Settings) (bytes : Bytes) :
    (ofBytes settings bytes).At bytes (Cursor.ofBytes settings bytes) where
  buffer_eq := rfl
  offset_le := Nat.zero_le _
  cursor_eq := rfl

end Reader

/-! ## Positions in faults -/

@[simp] theorem Fault.place?_rebase (fault : Fault) (base : ℕ) :
    (fault.rebase base).place? = fault.place?.map (· + base) := by
  cases fault <;> rfl

/-- A fault of decoding names a byte, or the place behind the last one. -/
theorem place_le_of_decode {settings : Settings} {bytes : Bytes} {fault : Fault}
    (h : decode settings bytes = .error fault) : ∀ place ∈ fault.place?, place ≤ bytes.length := by
  intro place hplace
  rcases decode_error_position h with rfl | ⟨index, rfl, hindex, -⟩ | ⟨limit, rfl, hlimit, -⟩
  · obtain rfl := Option.some.inj hplace
    exact Nat.zero_le _
  · obtain rfl := Option.some.inj hplace
    exact hindex.le
  · obtain rfl := Option.some.inj hplace
    exact hlimit.le

namespace Reader.At

variable {bytes : Bytes} {cursor : Cursor} {reader : Reader}

/-! ## What a reader sees -/

theorem offset_eq (h : reader.At bytes cursor) : cursor.offset = reader.offset := by
  rw [← h.cursor_eq]
  rfl

theorem settings_eq (h : reader.At bytes cursor) : cursor.settings = reader.settings := by
  rw [← h.cursor_eq]
  rfl

theorem ended_eq (h : reader.At bytes cursor) : cursor.ended = reader.ended := by
  rw [← h.cursor_eq]
  rfl

theorem unread_eq (h : reader.At bytes cursor) : cursor.unread = bytes.drop reader.offset := by
  rw [← h.cursor_eq, ← h.buffer_eq]
  rfl

/-- What was read and what is left are the buffer. -/
theorem offset_add_length (h : reader.At bytes cursor) :
    cursor.offset + cursor.unread.length = bytes.length := by
  have hle := h.offset_le
  rw [h.offset_eq, h.unread_eq, List.length_drop]
  omega

theorem remaining_eq (h : reader.At bytes cursor) : reader.remaining = .ok cursor.unread := by
  rw [remaining, h.buffer_eq, Checked.suffix_eq h.offset_le, h.unread_eq]

theorem atEnd_eq (h : reader.At bytes cursor) : reader.atEnd = cursor.atEnd := by
  have hlength := h.offset_add_length
  rw [Bool.eq_iff_iff, Cursor.atEnd_iff, atEnd, decide_eq_true_eq, h.buffer_eq,
    ← List.length_eq_zero_iff, ← h.offset_eq]
  omega

theorem not_atEnd (h : reader.At bytes cursor) (hunread : cursor.unread ≠ []) :
    ¬ reader.atEnd = true := by
  rw [h.atEnd_eq, Cursor.atEnd_iff]
  exact hunread

/-- A live reader before some bytes has an item to give. -/
theorem not_over (h : reader.At bytes cursor) (hlive : cursor.ended = false)
    (hunread : cursor.unread ≠ []) : ¬ (reader.ended || reader.atEnd) = true := by
  rw [Bool.or_eq_true, not_or, ← h.ended_eq, hlive]
  exact ⟨Bool.false_ne_true, h.not_atEnd hunread⟩

/-! ## What a read does -/

/-- A decoding that fails is a read that fails. Its position does not leave the buffer
when it is moved. -/
theorem readField_of_error (h : reader.At bytes cursor) (hbytes : bytes.length < Checked.wordSize)
    {fault : Fault} (hdecode : decode cursor.settings cursor.unread = .error fault) :
    reader.readField = .ok (.error (fault.rebase cursor.offset), reader) := by
  have hlength := h.offset_add_length
  have hread : Checked.readFront cursor.settings cursor.unread = .ok (.error fault) := by
    rw [Checked.readFront_eq (by omega), decode_eq_error_iff.mp hdecode]
  have hrebase : Checked.rebase cursor.offset fault = .ok (fault.rebase cursor.offset) := by
    apply Checked.rebase_eq
    intro place hplace
    have hle := place_le_of_decode hdecode place hplace
    omega
  rw [readField, h.remaining_eq, Checked.ok_bind, ← h.settings_eq, hread, Checked.ok_bind,
    ← h.offset_eq]
  simp only [hrebase, Checked.ok_bind, Checked.pure_eq]

/-- A decoding that succeeds is a read that moves the position on, by some bytes and by
no more than there are. -/
theorem readField_of_ok (h : reader.At bytes cursor) (hbytes : bytes.length < Checked.wordSize)
    {value : UInt64} {rest : Bytes}
    (hdecode : decode cursor.settings cursor.unread = .ok (value, rest)) :
    reader.readField = .ok (.ok (cursor.fieldTo rest value), reader.skipTo rest) := by
  have hlength := h.offset_add_length
  have hless := length_of_decode hdecode
  have hread : Checked.readFront cursor.settings cursor.unread =
      .ok (.ok ⟨value, cursor.unread.length - rest.length⟩) := by
    rw [Checked.readFront_eq (by omega), (readFront_of_decode hdecode).1]
  have hpositive : 1 ≤ cursor.unread.length - rest.length := by omega
  have hadd : Checked.add cursor.offset (cursor.unread.length - rest.length) =
      .ok (cursor.offset + (cursor.unread.length - rest.length)) := by
    apply Checked.add_eq
    omega
  rw [readField, h.remaining_eq, Checked.ok_bind, ← h.settings_eq, hread, Checked.ok_bind,
    ← h.offset_eq]
  simp only [Checked.require_eq hpositive, hadd, Checked.ok_bind, Checked.pure_eq]
  rw [Reader.skipTo, h.cursor_eq, ← h.offset_eq, h.settings_eq, Cursor.fieldTo]

theorem read_of_error (h : reader.At bytes cursor) (hbytes : bytes.length < Checked.wordSize)
    {fault : Fault} (hdecode : decode cursor.settings cursor.unread = .error fault) :
    reader.read = .ok (.error (fault.rebase cursor.offset), reader) := by
  rw [read, h.readField_of_error hbytes hdecode]
  rfl

theorem read_of_ok (h : reader.At bytes cursor) (hbytes : bytes.length < Checked.wordSize)
    {value : UInt64} {rest : Bytes}
    (hdecode : decode cursor.settings cursor.unread = .ok (value, rest)) :
    reader.read = .ok (.ok value, reader.skipTo rest) := by
  rw [read, h.readField_of_ok hbytes hdecode]
  rfl

/-- Behind what was read, the position is in the buffer again. -/
theorem skipTo (h : reader.At bytes cursor) {value : UInt64} {rest : Bytes}
    (hdecode : decode cursor.settings cursor.unread = .ok (value, rest)) :
    (reader.skipTo rest).At bytes (cursor.skipTo rest) where
  buffer_eq := h.buffer_eq
  offset_le := by
    have hlength := h.offset_add_length
    show reader.offset + (reader.cursor.unread.length - rest.length) ≤ bytes.length
    rw [h.cursor_eq, ← h.offset_eq]
    omega
  cursor_eq := by
    have hdrop := (readFront_of_decode hdecode).2
    have hunread : bytes.drop (reader.offset + (cursor.unread.length - rest.length)) = rest := by
      rw [← List.drop_drop, ← h.unread_eq, hdrop]
    show Cursor.mk (reader.offset + (reader.cursor.unread.length - rest.length))
      (reader.buffer.drop (reader.offset + (reader.cursor.unread.length - rest.length)))
      reader.settings reader.ended = cursor.skipTo rest
    rw [h.cursor_eq, h.buffer_eq, hunread, ← h.offset_eq, ← h.settings_eq, ← h.ended_eq]
    rfl

/-- The end of the items does not move the position. -/
theorem stop (h : reader.At bytes cursor) :
    Reader.At bytes { cursor with ended := true } { reader with ended := true } where
  buffer_eq := h.buffer_eq
  offset_le := h.offset_le
  cursor_eq := by
    rw [← h.cursor_eq]
    rfl

/-- The next item is that of the cursor, and so is the reader after it. -/
theorem next (h : reader.At bytes cursor) (hbytes : bytes.length < Checked.wordSize) :
    (cursor.next = none ∧ reader.next = .ok none) ∨
      ∃ item after moved, cursor.next = some (item, after) ∧
        reader.next = .ok (some (item, moved)) ∧ moved.At bytes after := by
  rcases cursor.next_cases with ⟨hover, hnext⟩ | ⟨hlive, hunread, cause, hdecode, hnext⟩ |
    ⟨hlive, value, rest, hdecode, hnext⟩
  · left
    rw [← Cursor.atEnd_iff, h.ended_eq, ← h.atEnd_eq, ← Bool.or_eq_true] at hover
    rw [Reader.next, if_pos hover]
    exact ⟨hnext, rfl⟩
  · right
    refine ⟨_, _, _, hnext, ?_, h.stop⟩
    rw [Reader.next, if_neg (h.not_over hlive hunread), h.readField_of_error hbytes hdecode]
    rfl
  · right
    have hended : reader.ended = false := by rw [← h.ended_eq, hlive]
    refine ⟨_, _, _, hnext, ?_, h.skipTo hdecode⟩
    rw [Reader.next, if_neg (h.not_over hlive (ne_nil_of_decode hdecode)),
      h.readField_of_ok hbytes hdecode]
    show Except.ok (some (_, { reader.skipTo rest with ended := false })) = _
    rw [← hended]
    rfl

/-! ## What a call does -/

/-- A direct read fails where decoding does, and leaves the reader in place. -/
theorem call_of_error (h : reader.At bytes cursor) (hbytes : bytes.length < Checked.wordSize)
    {call : Call} (hdirect : call ≠ .next) {cause : Fault}
    (hdecode : decode cursor.settings cursor.unread = .error cause) :
    reader.call call = .ok (.fault (cause.rebase cursor.offset), reader) := by
  have hread := h.readField_of_error hbytes hdecode
  cases call with
  | next => exact absurd rfl hdirect
  | read =>
    rw [Reader.call, h.read_of_error hbytes hdecode]
    rfl
  | readField =>
    rw [Reader.call, hread]
    rfl
  | readNarrow width =>
    rw [Reader.call, Reader.readNarrow, hread]
    rfl

/-- A direct read of a value moves the position behind it, or sets it back. -/
theorem call_of_ok (h : reader.At bytes cursor) (hbytes : bytes.length < Checked.wordSize)
    {call : Call} (hdirect : call ≠ .next) {value : UInt64} {rest : Bytes}
    (hdecode : decode cursor.settings cursor.unread = .ok (value, rest)) :
    ∃ after, reader.call call = .ok ((cursor.call call).1, after) ∧
      after.At bytes (cursor.call call).2 := by
  have hread := h.readField_of_ok hbytes hdecode
  cases call with
  | next => exact absurd rfl hdirect
  | read =>
    rw [Reader.call, h.read_of_ok hbytes hdecode, Cursor.call, Cursor.read,
      Cursor.readField_of_ok hdecode]
    exact ⟨_, rfl, h.skipTo hdecode⟩
  | readField =>
    rw [Reader.call, hread, Cursor.call, Cursor.readField_of_ok hdecode]
    exact ⟨_, rfl, h.skipTo hdecode⟩
  | readNarrow width =>
    rw [Reader.call, Reader.readNarrow, hread, Cursor.call, Cursor.readNarrow_of_ok hdecode]
    simp only [Checked.ok_bind, Cursor.fieldTo]
    split_ifs with hfits
    · exact ⟨_, rfl, h.skipTo hdecode⟩
    · -- the position goes back to where it was, and is in the buffer there
      exact ⟨_, rfl, h⟩

/-- **A call keeps the invariant.** It does not trap, and answers what it answers on the
cursor. -/
theorem call (h : reader.At bytes cursor) (hbytes : bytes.length < Checked.wordSize) (call : Call) :
    ∃ after, reader.call call = .ok ((cursor.call call).1, after) ∧
      after.At bytes (cursor.call call).2 := by
  by_cases hitem : call = .next
  · subst hitem
    unfold Reader.call Cursor.call
    rcases h.next hbytes with ⟨hnone, hchecked⟩ | ⟨item, after, moved, hsome, hchecked, hmoved⟩
    · rw [hnone, hchecked]
      exact ⟨reader, rfl, h⟩
    · rw [hsome, hchecked]
      cases item with
      | error fault => exact ⟨moved, rfl, hmoved⟩
      | ok field => exact ⟨moved, rfl, hmoved⟩
  · cases hdecode : decode cursor.settings cursor.unread with
    | error cause =>
      rw [Cursor.call_of_error hitem hdecode]
      exact ⟨reader, h.call_of_error hbytes hitem hdecode, h⟩
    | ok result => exact h.call_of_ok hbytes hitem hdecode

/-- **Any number of calls** keeps the invariant. -/
theorem answered (h : reader.At bytes cursor) (hbytes : bytes.length < Checked.wordSize)
    (calls : List Call) :
    ∃ last, reader.answered calls = .ok (cursor.answered calls, last) ∧
      last.At bytes (cursor.afterCalls calls) := by
  induction calls generalizing reader cursor with
  | nil => exact ⟨reader, rfl, h⟩
  | cons call calls ih =>
    rcases h.call hbytes call with ⟨after, hcall, hafter⟩
    rcases ih hafter with ⟨last, hcalls, hlast⟩
    refine ⟨last, ?_, hlast⟩
    rw [Reader.answered, hcall, Checked.ok_bind]
    simp only [hcalls, Checked.ok_bind, Checked.pure_eq]
    rfl

end Reader.At

/-! ## Answers -/

namespace Cursor

variable {cursor : Cursor}

/-- A call that fails names a position between the cursor and the end of the bytes. -/
theorem place_le_of_call {call : Call} {fault : Fault} (h : (cursor.call call).1 = .fault fault) :
    ∀ place ∈ fault.place?, place ≤ cursor.offset + cursor.unread.length := by
  intro place hplace
  have hcalled := called cursor call
  rw [h] at hcalled
  rcases hcalled.cause with ⟨cause, hdecode, rfl⟩ | ⟨width, value, rest, -, -, -, rfl⟩
  · rw [Fault.place?_rebase] at hplace
    rcases Option.mem_map.mp hplace with ⟨inner, hinner, rfl⟩
    have hle := place_le_of_decode hdecode inner hinner
    omega
  · obtain rfl := Option.some.inj hplace
    exact Nat.le_add_right _ _

/-- A call moves the cursor within its stream. -/
theorem offset_add_length_call (cursor : Cursor) (call : Call) :
    (cursor.call call).2.offset + (cursor.call call).2.unread.length =
      cursor.offset + cursor.unread.length := by
  have hcalled := called cursor call
  generalize (cursor.call call).1 = answer, (cursor.call call).2 = after at hcalled ⊢
  cases hcalled with
  | success decodes narrow =>
    have hless := length_of_decode decodes
    rw [skipTo_offset, skipTo_unread]
    omega
  | tooLarge decodes large => rfl
  | failed direct fails => rfl
  | stopped fails => rfl
  | ended done => rfl

/-- **Every fault names a position in the stream**, whatever was called before. -/
theorem place_le_of_answered {calls : List Call} {call : Call} {fault : Fault}
    (h : (call, .fault fault) ∈ cursor.answered calls) :
    ∀ place ∈ fault.place?, place ≤ cursor.offset + cursor.unread.length := by
  induction calls generalizing cursor with
  | nil => simp [answered] at h
  | cons first calls ih =>
    rw [answered] at h
    rcases List.mem_cons.mp h with hfirst | hlater
    · obtain ⟨rfl, hanswer⟩ := Prod.mk.inj hfirst
      exact place_le_of_call hanswer.symm
    · rw [← cursor.offset_add_length_call first]
      exact ih hlater

end Cursor

end Base128

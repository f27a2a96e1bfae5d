import Base128.Decode
import Base128.Field

/-! # Cursors

A cursor walks a stream of values that follow one another, as `Uleb128Reader` does. It
can be read directly or drained as a sequence of items.

* `Cursor.readField`, `Cursor.read`, `Cursor.readNarrow` — `read_field`, `read`, and
  `read_u32` and `read_usize`. A failing read has **no new cursor**: the one at hand
  is still good, and stands where it stood.
* `Cursor.next` — the iterator's `next`, which ends after the first fault, since
  nothing behind a malformed value can be found.
* `Cursor.take`, `Cursor.exhaust` — several items, and the cursor after them.
* `values` — `decode_all`.
-/

namespace Base128

abbrev Item := Except Fault Field

/-- A place in a stream of values: the number of bytes before it, and the bytes behind
it. Direct reads do not look at `ended`. -/
structure Cursor where
  offset : Nat
  unread : Bytes
  settings : Settings
  ended : Bool
deriving DecidableEq, Repr

namespace Cursor

def ofBytes (settings : Settings) (bytes : Bytes) : Cursor := ⟨0, bytes, settings, false⟩

def atEnd (cursor : Cursor) : Bool := cursor.unread.isEmpty

def advance (cursor : Cursor) (length : Nat) : Cursor :=
  { cursor with offset := cursor.offset + length, unread := cursor.unread.drop length }

/-- The value under the cursor, and the cursor behind it. A fault names its position in
the stream. -/
def readField (cursor : Cursor) : Except Fault (Field × Cursor) :=
  match readFront cursor.settings cursor.unread with
  | .error fault => .error (fault.rebase cursor.offset)
  | .ok reading =>
    .ok (⟨cursor.offset, reading.length, reading.value⟩, cursor.advance reading.length)

def read (cursor : Cursor) : Except Fault (UInt64 × Cursor) :=
  cursor.readField.map fun (field, cursor) => (field.value, cursor)

def readNarrow (cursor : Cursor) (width : Width) : Except Fault (UInt64 × Cursor) :=
  match cursor.readField with
  | .error fault => .error fault
  | .ok (field, cursor) =>
    if field.value.toNat ≤ width.largest then .ok (field.value, cursor)
    else .error (.valueTooLarge field.offset field.value width)

/-- There is no next item behind the last byte, and after a fault. -/
def next (cursor : Cursor) : Option (Item × Cursor) :=
  if cursor.ended || cursor.atEnd then none
  else match cursor.readField with
    | .error fault => some (.error fault, { cursor with ended := true })
    | .ok (field, cursor) => some (.ok field, cursor)

def take (cursor : Cursor) : Nat → List Item × Cursor
  | 0 => ([], cursor)
  | count + 1 =>
    match cursor.next with
    | none => ([], cursor)
    | some (item, cursor) =>
      let (items, cursor) := cursor.take count
      (item :: items, cursor)

/-- A bound on the number of items to come. -/
def pending (cursor : Cursor) : Nat := if cursor.ended then 0 else cursor.unread.length

/-- A read moves the cursor on. -/
theorem length_of_readField {cursor after : Cursor} {field : Field}
    (h : cursor.readField = .ok (field, after)) :
    after.unread.length < cursor.unread.length ∧ after.ended = cursor.ended := by
  unfold readField at h
  split at h
  · simp at h
  · rename_i reading hread
    have hlength := length_of_readFront hread
    simp only [Except.ok.injEq, Prod.mk.injEq] at h
    rw [← h.2]
    simp only [advance, List.length_drop, and_true]
    omega

theorem length_of_read {cursor after : Cursor} {value : UInt64}
    (h : cursor.read = .ok (value, after)) : after.unread.length < cursor.unread.length := by
  unfold read at h
  cases hread : cursor.readField with
  | error fault => simp [hread, Except.map] at h
  | ok result =>
    simp only [hread, Except.map, Except.ok.injEq, Prod.mk.injEq] at h
    rw [← h.2]
    exact (length_of_readField hread).1

/-- Every item uses up some of what is pending. -/
theorem pending_of_next {cursor after : Cursor} {item : Item}
    (h : cursor.next = some (item, after)) : after.pending < cursor.pending := by
  simp only [next, Bool.or_eq_true] at h
  split at h
  · simp at h
  · rename_i hlive
    rw [not_or, Bool.not_eq_true, Bool.not_eq_true] at hlive
    have hunread : 0 < cursor.unread.length := by
      rw [List.length_pos_iff]
      simpa [atEnd] using hlive.2
    split at h
    · simp only [Option.some.injEq, Prod.mk.injEq] at h
      simpa [pending, ← h.2, hlive.1] using hunread
    · rename_i field moved hread
      have hlength := length_of_readField hread
      simp only [Option.some.injEq, Prod.mk.injEq] at h
      rw [← h.2]
      simpa [pending, hlength.2, hlive.1] using hlength.1

def exhaust (cursor : Cursor) : List Item × Cursor :=
  match h : cursor.next with
  | none => ([], cursor)
  | some (item, after) =>
    have := pending_of_next h
    let (items, last) := after.exhaust
    (item :: items, last)
termination_by cursor.pending

end Cursor

def items (settings : Settings) (bytes : Bytes) : List Item :=
  (Cursor.ofBytes settings bytes).exhaust.1

/-- All values of a stream that holds only complete ones. -/
def values (bytes : Bytes) : Except Fault (List UInt64) :=
  (items {} bytes).mapM fun item => item.map Field.value

end Base128

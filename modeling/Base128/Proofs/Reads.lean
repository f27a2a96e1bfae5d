import Base128.Cursor
import Base128.Proofs.Ending

/-! # Reads of a cursor

What the reads of a cursor do is said once, in terms of decoding the bytes
behind it. Nothing after this file looks into a read.

* `Cursor.fieldTo`, `Cursor.skipTo` — the field between the cursor and the
  bytes left over, and the cursor before those bytes.
* `Cursor.readField_of_ok`, `Cursor.readField_of_error` — a read is a decoding,
  with its positions counted from the start of the stream.
* `Cursor.next_cases` — everything that the next item can be.
* `Cursor.exhaust_eq_take` — all items are the first so many items.
-/

namespace Base128

/-! ## Decoding by length -/

/-- What is left over says how long the value was. -/
theorem readFront_of_decode {settings : Settings} {bytes rest : Bytes} {value : UInt64}
    (h : decode settings bytes = .ok (value, rest)) :
    readFront settings bytes = .ok ⟨value, bytes.length - rest.length⟩ ∧
      bytes.drop (bytes.length - rest.length) = rest := by
  rcases decode_eq_ok_iff.mp h with ⟨front, rfl, hencodes⟩
  have hlength : (front ++ rest).length - rest.length = front.length := by simp
  rw [hlength]
  exact ⟨readFront_eq_ok_iff.mpr ⟨front, rest, rfl, rfl, hencodes⟩, List.drop_left⟩

/-- Nothing can be decoded from no bytes at all. -/
theorem decode_nil (settings : Settings) : decode settings [] = .error (.incomplete 0 0) :=
  decode_eq_error_iff.mpr (readFront_of_ending (.incomplete Unfinished.nil))

/-- Where a value is decoded, there are bytes. -/
theorem ne_nil_of_decode {settings : Settings} {bytes rest : Bytes} {value : UInt64}
    (h : decode settings bytes = .ok (value, rest)) : bytes ≠ [] := by
  intro hnil
  rw [hnil, decode_nil] at h
  simp at h

namespace Cursor

/-! ## Direct reads -/

/-- The field between the cursor and `rest`. -/
def fieldTo (cursor : Cursor) (rest : Bytes) (value : UInt64) : Field where
  offset := cursor.offset
  length := cursor.unread.length - rest.length
  value := value

/-- The cursor with nothing but `rest` left to read. -/
def skipTo (cursor : Cursor) (rest : Bytes) : Cursor :=
  { cursor with
    offset := cursor.offset + (cursor.unread.length - rest.length), unread := rest }

@[simp] theorem skipTo_offset (cursor : Cursor) (rest : Bytes) :
    (cursor.skipTo rest).offset = cursor.offset + (cursor.unread.length - rest.length) := rfl

@[simp] theorem skipTo_unread (cursor : Cursor) (rest : Bytes) :
    (cursor.skipTo rest).unread = rest := rfl

@[simp] theorem skipTo_settings (cursor : Cursor) (rest : Bytes) :
    (cursor.skipTo rest).settings = cursor.settings := rfl

@[simp] theorem skipTo_ended (cursor : Cursor) (rest : Bytes) :
    (cursor.skipTo rest).ended = cursor.ended := rfl

variable {cursor : Cursor}

/-- A decoding that fails is a read that fails, further on in the stream. -/
theorem readField_of_error {fault : Fault}
    (h : decode cursor.settings cursor.unread = .error fault) :
    cursor.readField = .error (fault.rebase cursor.offset) := by
  rw [readField, decode_eq_error_iff.mp h]

/-- A decoding that succeeds is a read that moves on by the length of the
value. -/
theorem readField_of_ok {value : UInt64} {rest : Bytes}
    (h : decode cursor.settings cursor.unread = .ok (value, rest)) :
    cursor.readField = .ok (cursor.fieldTo rest value, cursor.skipTo rest) := by
  rcases readFront_of_decode h with ⟨hread, hdrop⟩
  rw [readField, hread]
  simp only [advance, hdrop, fieldTo, skipTo]

/-- A narrow read asks in addition how large the value is. -/
theorem readNarrow_of_ok {value : UInt64} {rest : Bytes} {width : Width}
    (h : decode cursor.settings cursor.unread = .ok (value, rest)) :
    cursor.readNarrow width =
      if value.toNat ≤ width.largest then .ok (value, cursor.skipTo rest)
      else .error (.valueTooLarge cursor.offset value width) := by
  rw [readNarrow, readField_of_ok h]
  rfl

theorem atEnd_iff : cursor.atEnd = true ↔ cursor.unread = [] := by
  unfold atEnd
  exact List.isEmpty_iff

/-! ## Items -/

/-- The next item is none at the end and after a fault, and otherwise what a
read gives. -/
theorem next_cases (cursor : Cursor) :
    ((cursor.ended = true ∨ cursor.unread = []) ∧ cursor.next = none) ∨
      (cursor.ended = false ∧ cursor.unread ≠ [] ∧ ∃ fault,
        decode cursor.settings cursor.unread = .error fault ∧
        cursor.next = some (.error (fault.rebase cursor.offset), { cursor with ended := true })) ∨
      (cursor.ended = false ∧ ∃ value rest,
        decode cursor.settings cursor.unread = .ok (value, rest) ∧
        cursor.next = some (.ok (cursor.fieldTo rest value), cursor.skipTo rest)) := by
  by_cases hover : cursor.ended = true ∨ cursor.unread = []
  · refine Or.inl ⟨hover, ?_⟩
    rw [← atEnd_iff, ← Bool.or_eq_true] at hover
    unfold next
    rw [if_pos hover]
  · right
    have hlive : cursor.ended = false ∧ cursor.unread ≠ [] := by
      rw [not_or, Bool.not_eq_true] at hover
      exact hover
    rw [← atEnd_iff, ← Bool.or_eq_true] at hover
    unfold next
    rw [if_neg hover]
    -- what is left of `next` is a read, and that is a decoding
    cases hdecode : decode cursor.settings cursor.unread with
    | error fault =>
      rw [readField_of_error hdecode]
      exact Or.inl ⟨hlive.1, hlive.2, fault, rfl, rfl⟩
    | ok result =>
      rcases result with ⟨value, rest⟩
      rw [readField_of_ok hdecode]
      exact Or.inr ⟨hlive.1, value, rest, rfl, rfl⟩

theorem exhaust_of_next_eq_none (h : cursor.next = none) : cursor.exhaust = ([], cursor) := by
  rw [exhaust]
  split
  · rfl
  · rename_i hsome
    rw [h] at hsome
    simp at hsome

theorem exhaust_of_next_eq_some {item : Item} {after : Cursor}
    (h : cursor.next = some (item, after)) :
    cursor.exhaust = (item :: after.exhaust.1, after.exhaust.2) := by
  rw [exhaust]
  split
  · rename_i hnone
    rw [h] at hnone
    simp at hnone
  · rename_i hsome
    rw [h] at hsome
    obtain ⟨rfl, rfl⟩ := Prod.mk.inj (Option.some.inj hsome)
    rfl

/-- Asking for as many items as there can be gives all of them. -/
theorem exhaust_eq_take {count : ℕ} (h : cursor.pending ≤ count) :
    cursor.exhaust = cursor.take count := by
  induction count generalizing cursor with
  | zero =>
    have hnone : cursor.next = none := by
      cases hnext : cursor.next with
      | none => rfl
      | some result =>
        -- an item would use up some of what is pending, and nothing is
        have hless := pending_of_next hnext
        omega
    rw [exhaust_of_next_eq_none hnone, take]
  | succ count ih =>
    cases hnext : cursor.next with
    | none => rw [exhaust_of_next_eq_none hnext, take, hnext]
    | some result =>
      rcases result with ⟨item, after⟩
      have hless := pending_of_next hnext
      rw [exhaust_of_next_eq_some hnext, take, hnext, ih (by omega)]

/-- Asking for so many items gives the first ones of all. -/
theorem take_fst_eq (count : ℕ) : (cursor.take count).1 = cursor.exhaust.1.take count := by
  induction count generalizing cursor with
  | zero => rfl
  | succ count ih =>
    cases hnext : cursor.next with
    | none =>
      rw [exhaust_of_next_eq_none hnext]
      simp [take, hnext]
    | some result =>
      rcases result with ⟨item, after⟩
      rw [exhaust_of_next_eq_some hnext]
      simp [take, hnext, ih]

end Cursor

end Base128

import Base128.Listing
import Base128.Proofs.Items
import Base128.Readout
import Base128.Validity

/-! # Walks over a stream

Four loops walk a stream from its front: one lists fields, one prints rows, one
counts values, and one collects them. They are written apart, over items or
over direct reads, and each makes its own account of a malformed value.

* `Course` — what there is to find on the way: the fields, and then the first
  malformed value or the end.
* `exists_course` — every walk has a course.
* `Course.gather_eq`, `Course.table_eq`, `Course.walk_eq`, `Course.values_eq` —
  each loop gives **the same course**, in its own terms.
-/

namespace Base128

open Validity (Finding)

/-- The fields from a cursor on, and the malformed value that ends them, if any. -/
inductive Course : Cursor → List Field → Option Finding → Prop where
  | finished {cursor : Cursor} (unread_eq : cursor.unread = []) : Course cursor [] none
  | stopped {cursor : Cursor} {fault : Fault} (unread_ne : cursor.unread ≠ [])
      (fails : decode cursor.settings cursor.unread = .error fault) :
      Course cursor [] (some ⟨cursor.offset, fault.rebase cursor.offset⟩)
  | behind {cursor : Cursor} {value : UInt64} {rest : Bytes} {fields : List Field}
      {finding : Option Finding}
      (decodes : decode cursor.settings cursor.unread = .ok (value, rest))
      (more : Course (cursor.skipTo rest) fields finding) :
      Course cursor (cursor.fieldTo rest value :: fields) finding

/-- The outcome of a walk, in the walk's own terms: what it made of the fields,
or what it says of the malformed value. -/
def outcome {ε α : Type} (finding : Option Finding) (blame : Finding → ε) (made : α) :
    Except ε α :=
  match finding with
  | none => .ok made
  | some found => .error (blame found)

theorem exists_course (cursor : Cursor) : ∃ fields finding, Course cursor fields finding := by
  induction cursor using Cursor.walk_induction with
  | finished cursor hunread => exact ⟨[], none, .finished hunread⟩
  | stopped cursor fault hunread hdecode => exact ⟨[], _, .stopped hunread hdecode⟩
  | behind cursor value rest hdecode ih =>
    rcases ih with ⟨fields, finding, hmore⟩
    exact ⟨_, finding, .behind hdecode hmore⟩

namespace Course

variable {cursor : Cursor} {fields : List Field} {finding : Option Finding}

/-! ## Loops over items -/

/-- A listing is the fields, each at its place in the file. A malformed value is
named by the place where it starts, which is where the field before it ends. -/
theorem gather_eq (h : Course cursor fields finding) (hlive : cursor.ended = false) (base : ℕ) :
    Listing.gather base (cursor.offset + base) cursor.exhaust.1 =
      outcome finding (fun found => .malformed (found.start + base) found.fault)
        (fields.map (Field.moved base)) := by
  induction h with
  | finished unread_eq =>
    rw [Cursor.exhaust_of_finished unread_eq]
    rfl
  | stopped unread_ne fails =>
    rw [Cursor.exhaust_of_error hlive unread_ne fails]
    rfl
  | @behind cursor value rest fields finding decodes more ih =>
    have hstop : ((cursor.fieldTo rest value).moved base).stop =
        (cursor.skipTo rest).offset + base := by
      simp only [Field.stop, Field.moved, Cursor.fieldTo, Cursor.skipTo_offset]
      omega
    rw [Cursor.exhaust_of_ok hlive decodes, Listing.gather, hstop, ih hlive]
    cases finding with
    | none => rfl
    | some found => rfl

/-- A table is the rows of the fields. -/
theorem table_eq (h : Course cursor fields finding) (hlive : cursor.ended = false) :
    Readout.table cursor.exhaust.1 =
      outcome finding (fun found => .undecodable found.fault)
        (Text.lines (fields.map Field.row)) := by
  induction h with
  | finished unread_eq =>
    rw [Cursor.exhaust_of_finished unread_eq]
    rfl
  | stopped unread_ne fails =>
    rw [Cursor.exhaust_of_error hlive unread_ne fails]
    rfl
  | @behind cursor value rest fields finding decodes more ih =>
    rw [Cursor.exhaust_of_ok hlive decodes, Readout.table, ih hlive]
    cases finding with
    | none =>
      rw [List.map_cons, Text.lines_cons]
      rfl
    | some found => rfl

/-- The values are those of the fields. -/
theorem values_eq (h : Course cursor fields finding) (hlive : cursor.ended = false) :
    (cursor.exhaust.1.mapM fun item => item.map Field.value) =
      outcome finding Finding.fault (fields.map Field.value) := by
  induction h with
  | finished unread_eq =>
    rw [Cursor.exhaust_of_finished unread_eq]
    rfl
  | stopped unread_ne fails =>
    rw [Cursor.exhaust_of_error hlive unread_ne fails]
    rfl
  | @behind cursor value rest fields finding decodes more ih =>
    rw [Cursor.exhaust_of_ok hlive decodes, List.mapM_cons, ih hlive]
    cases finding with
    | none => rfl
    | some found => rfl

/-! ## The loop over direct reads -/

theorem walk_of_error {fault : Fault} (hunread : cursor.unread ≠ [])
    (h : decode cursor.settings cursor.unread = .error fault) (total count : ℕ) :
    Validity.walk total cursor count = .error ⟨cursor.offset, fault.rebase cursor.offset⟩ := by
  have hread : cursor.read = .error (fault.rebase cursor.offset) := by
    rw [Cursor.read, Cursor.readField_of_error h]
    rfl
  rw [Validity.walk, if_neg (mt Cursor.atEnd_iff.mp hunread)]
  split
  · rename_i found hfound
    rw [hread] at hfound
    rw [← Except.error.inj hfound]
  · rename_i hok
    rw [hread] at hok
    simp at hok

theorem walk_of_ok {value : UInt64} {rest : Bytes}
    (h : decode cursor.settings cursor.unread = .ok (value, rest)) (total count : ℕ) :
    Validity.walk total cursor count = Validity.walk total (cursor.skipTo rest) (count + 1) := by
  have hread : cursor.read = .ok (value, cursor.skipTo rest) := by
    rw [Cursor.read, Cursor.readField_of_ok h]
    rfl
  rw [Validity.walk, if_neg (mt Cursor.atEnd_iff.mp (ne_nil_of_decode h))]
  split
  · rename_i hfault
    rw [hread] at hfault
    simp at hfault
  · rename_i after hafter
    rw [hread] at hafter
    obtain ⟨-, rfl⟩ := Prod.mk.inj (Except.ok.inj hafter)
    rfl

/-- The count is that of the fields, and the loop ends where the bytes do. -/
theorem walk_eq (h : Course cursor fields finding) (total count : ℕ) :
    Validity.walk total cursor count =
      outcome finding id
        ⟨total, count + fields.length, cursor.offset + cursor.unread.length⟩ := by
  induction h generalizing count with
  | finished unread_eq =>
    rw [Validity.walk, if_pos (Cursor.atEnd_iff.mpr unread_eq), unread_eq]
    rfl
  | stopped unread_ne fails => exact walk_of_error unread_ne fails total count
  | @behind cursor value rest fields finding decodes more ih =>
    have hlength := length_of_decode decodes
    rw [walk_of_ok decodes, ih]
    cases finding with
    | some found => rfl
    | none =>
      have hcount : count + 1 + fields.length = count + (fields.length + 1) := by omega
      have hstop : cursor.offset + (cursor.unread.length - rest.length) + rest.length =
          cursor.offset + cursor.unread.length := by
        omega
      simp only [Cursor.skipTo_offset, Cursor.skipTo_unread, List.length_cons, hcount, hstop]

/-! ## Walks over byte strings -/

variable {settings : Settings} {bytes : Bytes}

/-- A listing of all that is behind `skip` bytes. -/
theorem collect_eq {skip : ℕ} (hskip : skip ≤ bytes.length)
    (h : Course (Cursor.ofBytes settings (bytes.drop skip)) fields finding) :
    Listing.collect settings bytes skip none =
      outcome finding (fun found => .malformed (found.start + skip) found.fault)
        (fields.map (Field.moved skip)) := by
  rw [← h.gather_eq rfl skip, Listing.collect, if_neg (Nat.not_lt.mpr hskip)]
  simp [Cursor.ofBytes, Listing.selected, items]

theorem check_eq (h : Course (Cursor.ofBytes settings bytes) fields finding) :
    Validity.check settings bytes =
      outcome finding id ⟨bytes.length, fields.length, bytes.length⟩ := by
  rw [Validity.check, h.walk_eq]
  simp [Cursor.ofBytes]

end Course

end Base128

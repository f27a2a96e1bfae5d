import Base128.Proofs.Reads

/-! # Items of a stream

A stream is read from the front: it is over, or it starts with a value and goes
on behind it, or it is malformed at the front, and the items stop. Everything
that walks a stream follows this shape.

* `Cursor.walk_induction`, `stream_induction` — the three cases as a principle
  of induction, for what stands behind a cursor and for whole byte strings.
* `Cursor.exhaust_eq_map_moved` — a cursor in the middle of a stream gives
  **the same items** as a new one on the bytes behind it, moved by its place.
* `items_encoded` — so the items of a stream are its first value and the moved
  items of the rest.
-/

namespace Base128

/-! ## Moving items -/

/-- An item as seen from a stream in which the bytes start at `base`. -/
def Item.moved (base : ℕ) : Item → Item
  | .ok field => .ok (field.moved base)
  | .error fault => .error (fault.rebase base)

@[simp] theorem Fault.rebase_zero (fault : Fault) : fault.rebase 0 = fault := by
  cases fault <;> rfl

theorem Fault.rebase_rebase (fault : Fault) (inner outer : ℕ) :
    (fault.rebase inner).rebase outer = fault.rebase (outer + inner) := by
  cases fault <;> simp [Fault.rebase, Nat.add_comm, Nat.add_left_comm]

@[simp] theorem Field.moved_zero (field : Field) : field.moved 0 = field := rfl

theorem Field.moved_moved (field : Field) (inner outer : ℕ) :
    (field.moved inner).moved outer = field.moved (outer + inner) := by
  simp [Field.moved, Nat.add_comm, Nat.add_left_comm]

@[simp] theorem Item.moved_ok (base : ℕ) (field : Field) :
    Item.moved base (.ok field) = .ok (field.moved base) := rfl

@[simp] theorem Item.moved_error (base : ℕ) (fault : Fault) :
    Item.moved base (.error fault) = .error (fault.rebase base) := rfl

@[simp] theorem Item.moved_zero (item : Item) : Item.moved 0 item = item := by
  cases item <;> simp

@[simp] theorem Item.map_moved_zero (items : List Item) : items.map (Item.moved 0) = items := by
  rw [funext Item.moved_zero]
  exact List.map_id' items

@[simp] theorem Item.moved_moved (item : Item) (inner outer : ℕ) :
    Item.moved outer (Item.moved inner item) = Item.moved (outer + inner) item := by
  cases item <;> simp [Fault.rebase_rebase, Field.moved_moved]

/-- Different faults stay different when the stream starts earlier. -/
theorem Fault.rebase_injective (base : ℕ) : Function.Injective (Fault.rebase base) := by
  intro fault other h
  cases fault <;> cases other <;> simp_all [Fault.rebase]

theorem Item.moved_injective (base : ℕ) : Function.Injective (Item.moved base) := by
  intro item other h
  cases item with
  | error fault =>
    cases other with
    | error cause =>
      have hfault : fault.rebase base = cause.rebase base := Except.error.inj h
      rw [Fault.rebase_injective base hfault]
    | ok field => simp at h
  | ok field =>
    cases other with
    | error cause => simp at h
    | ok found =>
      have hfield : field.moved base = found.moved base := Except.ok.inj h
      cases field
      cases found
      simp_all [Field.moved]

namespace Cursor

/-! ## Walking with a cursor -/

/-- A walk is over, or stopped by a fault, or goes on behind one more value. -/
theorem walk_induction {motive : Cursor → Prop}
    (finished : ∀ cursor, cursor.unread = [] → motive cursor)
    (stopped : ∀ cursor fault, cursor.unread ≠ [] →
      decode cursor.settings cursor.unread = .error fault → motive cursor)
    (behind : ∀ cursor value rest, decode cursor.settings cursor.unread = .ok (value, rest) →
      motive (cursor.skipTo rest) → motive cursor) (cursor : Cursor) : motive cursor := by
  -- each value makes the unread bytes fewer
  induction hlength : cursor.unread.length using Nat.strongRecOn generalizing cursor with
  | ind length ih =>
    by_cases hunread : cursor.unread = []
    · exact finished cursor hunread
    · cases hdecode : decode cursor.settings cursor.unread with
      | error fault => exact stopped cursor fault hunread hdecode
      | ok result =>
        rcases result with ⟨value, rest⟩
        have hless := length_of_decode hdecode
        exact behind cursor value rest hdecode (ih rest.length (by omega) _ rfl)

variable {cursor : Cursor}

/-- Behind the last byte there are no items. -/
theorem exhaust_of_finished (h : cursor.unread = []) : cursor.exhaust = ([], cursor) := by
  rcases cursor.next_cases with ⟨-, hnext⟩ | ⟨-, hunread, -⟩ | ⟨-, value, rest, hdecode, -⟩
  · exact exhaust_of_next_eq_none hnext
  · exact absurd h hunread
  · exact absurd h (ne_nil_of_decode hdecode)

/-- A fault is the last item. -/
theorem exhaust_of_error {fault : Fault} (hlive : cursor.ended = false)
    (hunread : cursor.unread ≠ []) (h : decode cursor.settings cursor.unread = .error fault) :
    cursor.exhaust.1 = [.error (fault.rebase cursor.offset)] := by
  rcases cursor.next_cases with ⟨hover, -⟩ | ⟨-, -, cause, hdecode, hnext⟩ |
    ⟨-, value, rest, hdecode, -⟩
  · simp [hlive, hunread] at hover
  · rw [h] at hdecode
    obtain rfl := Except.error.inj hdecode
    -- the cursor that comes with the fault gives nothing more
    have hdone : ({ cursor with ended := true } : Cursor).next = none := by
      simp [next]
    rw [exhaust_of_next_eq_some hnext, exhaust_of_next_eq_none hdone]
  · rw [h] at hdecode
    simp at hdecode

/-- A value is an item, and the others are those behind it. -/
theorem exhaust_of_ok {value : UInt64} {rest : Bytes} (hlive : cursor.ended = false)
    (h : decode cursor.settings cursor.unread = .ok (value, rest)) :
    cursor.exhaust.1 = .ok (cursor.fieldTo rest value) :: (cursor.skipTo rest).exhaust.1 := by
  rcases cursor.next_cases with ⟨hover, -⟩ | ⟨-, -, cause, hdecode, -⟩ |
    ⟨-, other, left, hdecode, hnext⟩
  · rcases hover with hended | hunread
    · simp [hlive] at hended
    · exact absurd hunread (ne_nil_of_decode h)
  · rw [h] at hdecode
    simp at hdecode
  · rw [h] at hdecode
    obtain ⟨rfl, rfl⟩ := Prod.mk.inj (Except.ok.inj hdecode)
    rw [exhaust_of_next_eq_some hnext]

/-- The cursor as seen from a stream that starts `base` bytes earlier. -/
def moved (base : ℕ) (cursor : Cursor) : Cursor :=
  { cursor with offset := cursor.offset + base }

theorem skipTo_moved (cursor : Cursor) (base : ℕ) (rest : Bytes) :
    (cursor.moved base).skipTo rest = (cursor.skipTo rest).moved base := by
  simp [moved, skipTo, Nat.add_right_comm]

/-- The same bytes further on in a stream give the same items, further on. -/
theorem exhaust_moved (cursor : Cursor) (base : ℕ) (hlive : cursor.ended = false) :
    (cursor.moved base).exhaust.1 = cursor.exhaust.1.map (Item.moved base) := by
  induction cursor using walk_induction with
  | finished cursor hunread =>
    have hmoved : (cursor.moved base).unread = [] := hunread
    rw [exhaust_of_finished hunread, exhaust_of_finished hmoved]
    rfl
  | stopped cursor fault hunread hdecode =>
    have hmoved : (cursor.moved base).exhaust.1 =
        [.error (fault.rebase (cursor.offset + base))] := exhaust_of_error hlive hunread hdecode
    rw [exhaust_of_error hlive hunread hdecode, hmoved]
    simp [Fault.rebase_rebase, Nat.add_comm]
  | behind cursor value rest hdecode ih =>
    have hmoved : (cursor.moved base).exhaust.1 =
        .ok ((cursor.moved base).fieldTo rest value) ::
          ((cursor.moved base).skipTo rest).exhaust.1 := exhaust_of_ok hlive hdecode
    rw [exhaust_of_ok hlive hdecode, hmoved, skipTo_moved, ih hlive]
    rfl

/-- **The shift law.** A live cursor gives the items of the bytes behind it,
moved to its place in the stream. -/
theorem exhaust_eq_map_moved (hlive : cursor.ended = false) :
    cursor.exhaust.1 =
      (items cursor.settings cursor.unread).map (Item.moved cursor.offset) := by
  have hstart := exhaust_moved (ofBytes cursor.settings cursor.unread) cursor.offset rfl
  have hcursor : (ofBytes cursor.settings cursor.unread).moved cursor.offset = cursor := by
    simp only [moved, ofBytes, Nat.zero_add, ← hlive]
  rw [items, ← hstart, hcursor]

end Cursor

/-! ## Items of byte strings -/

variable {settings : Settings} {bytes : Bytes}

/-- There are no items where there are no bytes. -/
@[simp] theorem items_nil (settings : Settings) : items settings [] = [] := by
  rw [items, Cursor.exhaust_of_finished rfl]

/-- A stream that is malformed at the front has no other item. -/
theorem items_of_error {fault : Fault} (hne : bytes ≠ [])
    (h : decode settings bytes = .error fault) : items settings bytes = [.error fault] := by
  have hitems : (Cursor.ofBytes settings bytes).exhaust.1 = [.error (fault.rebase 0)] :=
    Cursor.exhaust_of_error rfl hne h
  rw [items, hitems, Fault.rebase_zero]

/-- A value at the front is the first item, and the others are those of the
bytes behind it. -/
theorem items_encoded {front : Bytes} {value : UInt64} (h : Encodes settings front value)
    (rest : Bytes) :
    items settings (front ++ rest) =
      .ok ⟨0, front.length, value⟩ :: (items settings rest).map (Item.moved front.length) := by
  have hdecode : decode settings (front ++ rest) = .ok (value, rest) :=
    decode_eq_ok_iff.mpr ⟨front, rfl, h⟩
  have hlength : (front ++ rest).length - rest.length = front.length := by
    simp
  rw [items, Cursor.exhaust_of_ok rfl hdecode, Cursor.exhaust_eq_map_moved rfl]
  simp only [Cursor.fieldTo, Cursor.skipTo, Cursor.ofBytes, hlength, Nat.zero_add]

/-- A stream is over, or malformed at the front, or a value and a stream. -/
theorem stream_induction (settings : Settings) {motive : Bytes → Prop} (finished : motive [])
    (malformed : ∀ bytes fault, bytes ≠ [] → decode settings bytes = .error fault → motive bytes)
    (value : ∀ front value rest, Encodes settings front value → motive rest →
      motive (front ++ rest)) (bytes : Bytes) : motive bytes := by
  induction hlength : bytes.length using Nat.strongRecOn generalizing bytes with
  | ind length ih =>
    by_cases hne : bytes = []
    · rw [hne]
      exact finished
    · cases hdecode : decode settings bytes with
      | error fault => exact malformed bytes fault hne hdecode
      | ok result =>
        have hless := length_of_decode hdecode
        rcases decode_eq_ok_iff.mp hdecode with ⟨front, rfl, hencodes⟩
        exact value front _ _ hencodes (ih _ (by omega) _ rfl)

end Base128

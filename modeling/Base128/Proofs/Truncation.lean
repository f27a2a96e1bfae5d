import Mathlib.Order.Bounds.Basic
import Base128.Proofs.Concatenation

/-! # Streams that are cut off

A stream that was read without a fault is cut off somewhere. What was complete
before the cut is read as before, and all that the cut can do is to leave the
front of **one value**, for which bytes are missing.

* `Encodes.unfinished_take` — every proper part from the front of an encoding is
  unfinished: no byte of it ends the value, or is refused.
* `boundaries` — the places between the values of a stream.
* `Cut` — what a stream gives that was cut off at some place: nothing but fields
  at a boundary, and one fault more inside a value.
* `Cut.behind`, `cut_joined` — a value in front moves the cut, and so every cut of
  every concatenation is one of these two.
* `items_take` — what this means for streams that are read without a fault.
-/

namespace Base128

variable {settings : Settings} {bytes : Bytes}

/-! ## A value that is cut off -/

/-- No proper part from the front of an encoding ends the value, or is refused. -/
theorem Encodes.unfinished_take {value : UInt64} (h : Encodes settings bytes value) {n : ℕ}
    (hn : n < bytes.length) : Unfinished settings (bytes.take n) where
  continues := by
    rcases h.terminated with ⟨front, last, rfl, hfront, -⟩
    -- the cut is before the last byte, the only one that does not continue
    rw [List.length_append, List.length_singleton] at hn
    rw [List.take_append_of_le_length (by omega)]
    intro byte hbyte
    exact hfront byte (List.mem_of_mem_take hbyte)
  allowed := h.allowed.mono (List.length_take_le' n bytes)
  fits := by
    have hle := magnitude_le_append (bytes.take n) (bytes.drop n)
    rw [List.take_append_drop] at hle
    exact h.fits.mono hle

/-- So all that is wrong with it is that bytes are missing. -/
theorem decode_take {value : UInt64} (h : Encodes settings bytes value) {n : ℕ}
    (hn : n < bytes.length) :
    decode settings (bytes.take n) = .error (.incomplete 0 n) := by
  have hlength : (bytes.take n).length = n := List.length_take_of_le hn.le
  have hread := readFront_of_ending (Ending.incomplete (h.unfinished_take hn))
  rw [hlength] at hread
  exact decode_eq_error_iff.mpr hread

/-! ## The places between values -/

/-- The places between the values of a stream with these fields, with its start and
its end. -/
def boundaries (fields : List Field) : List ℕ := 0 :: fields.map Field.stop

/-- The fields that end at `n` or before. -/
def endingBy (n : ℕ) (fields : List Field) : List Field :=
  fields.filter fun field => field.stop ≤ n

@[simp] theorem Field.stop_moved (base : ℕ) (field : Field) :
    (field.moved base).stop = field.stop + base := by
  simp only [stop, moved]
  omega

/-- A value in front of a stream has its start for a boundary, and moves all
others. -/
theorem boundaries_cons (length : ℕ) (value : UInt64) (fields : List Field) :
    boundaries (⟨0, length, value⟩ :: fields.map (Field.moved length)) =
      0 :: (boundaries fields).map (· + length) := by
  simp only [boundaries, List.map_cons, List.map_map, Function.comp_def, Field.stop_moved]
  rfl

theorem endingBy_moved {base n : ℕ} (h : base ≤ n) (fields : List Field) :
    endingBy n (fields.map (Field.moved base)) =
      (endingBy (n - base) fields).map (Field.moved base) := by
  have hstop (field : Field) : (field.moved base).stop ≤ n ↔ field.stop ≤ n - base := by
    rw [Field.stop_moved]
    omega
  simp only [endingBy, List.filter_map, Function.comp_def, hstop]

section Front

variable {length n : ℕ} {value : UInt64} {fields : List Field}

/-- A cut inside the first value leaves no field. -/
theorem endingBy_cons_of_lt (h : n < length) :
    endingBy n (⟨0, length, value⟩ :: fields.map (Field.moved length)) = [] := by
  rw [endingBy, List.filter_cons_of_neg (by simp [Field.stop, h]), List.filter_eq_nil_iff]
  intro field hfield
  rcases List.mem_map.mp hfield with ⟨other, -, rfl⟩
  rw [Field.stop_moved, decide_eq_true_eq]
  omega

/-- A cut behind the first value leaves it, and what the cut leaves of the others. -/
theorem endingBy_cons_of_le (h : length ≤ n) :
    endingBy n (⟨0, length, value⟩ :: fields.map (Field.moved length)) =
      ⟨0, length, value⟩ :: (endingBy (n - length) fields).map (Field.moved length) := by
  rw [← endingBy_moved h, endingBy, List.filter_cons_of_pos (by simp [Field.stop, h])]
  rfl

theorem mem_boundaries_cons {place : ℕ} :
    place ∈ boundaries (⟨0, length, value⟩ :: fields.map (Field.moved length)) ↔
      place = 0 ∨ ∃ b ∈ boundaries fields, b + length = place := by
  rw [boundaries_cons, List.mem_cons, List.mem_map]

/-- Inside the first value there is no boundary. -/
theorem notMem_boundaries_cons (hpos : 0 < n) (h : n < length) :
    n ∉ boundaries (⟨0, length, value⟩ :: fields.map (Field.moved length)) := by
  rw [mem_boundaries_cons]
  rintro (hzero | ⟨b, -, hmoved⟩)
  · omega
  · omega

/-- Behind the first value, a boundary is one that was moved. -/
theorem mem_boundaries_cons_of_le (hpos : 0 < length) (h : length ≤ n) :
    n ∈ boundaries (⟨0, length, value⟩ :: fields.map (Field.moved length)) ↔
      n - length ∈ boundaries fields := by
  rw [mem_boundaries_cons]
  constructor
  · rintro (hzero | ⟨b, hb, rfl⟩)
    · omega
    · rwa [Nat.add_sub_cancel]
  · intro hb
    exact Or.inr ⟨_, hb, Nat.sub_add_cancel h⟩

/-- A cut inside the first value has only the start before it. -/
theorem isGreatest_start (hpos : 0 < n) (h : n < length) :
    IsGreatest {b | b ∈ boundaries (⟨0, length, value⟩ :: fields.map (Field.moved length)) ∧
      b < n} 0 := by
  refine ⟨⟨mem_boundaries_cons.mpr (Or.inl rfl), hpos⟩, ?_⟩
  rintro b ⟨hb, hlt⟩
  rcases mem_boundaries_cons.mp hb with hzero | ⟨place, -, hmoved⟩
  · exact hzero.le
  · omega

/-- The last boundary before a cut is moved with the cut. -/
theorem isGreatest_moved (h : length < n) {start : ℕ}
    (hstart : IsGreatest {b | b ∈ boundaries fields ∧ b < n - length} start) :
    IsGreatest {b | b ∈ boundaries (⟨0, length, value⟩ :: fields.map (Field.moved length)) ∧
      b < n} (start + length) := by
  have hlt : start < n - length := hstart.1.2
  constructor
  · exact ⟨mem_boundaries_cons.mpr (Or.inr ⟨start, hstart.1.1, rfl⟩), by omega⟩
  · rintro b ⟨hb, hbn⟩
    rcases mem_boundaries_cons.mp hb with hzero | ⟨place, hplace, rfl⟩
    · omega
    · have hle := hstart.2 ⟨hplace, by omega⟩
      omega

end Front

/-! ## What a cut leaves -/

/-- The items of a stream with these fields, when it is cut off behind `n` bytes. -/
inductive Cut (fields : List Field) (n : ℕ) : List Item → Prop where
  /-- The cut is between two values. -/
  | between (boundary : n ∈ boundaries fields) :
      Cut fields n ((endingBy n fields).map .ok)
  /-- The cut is inside the value that starts at `start`. -/
  | inside {start : ℕ} (no_boundary : n ∉ boundaries fields)
      (greatest : IsGreatest {b | b ∈ boundaries fields ∧ b < n} start) :
      Cut fields n ((endingBy n fields).map .ok ++ [.error (.incomplete start (n - start))])

/-- A cut inside the first value, or before it. -/
theorem Cut.front {front : Bytes} {value : UInt64} (hfront : Encodes settings front value) {n : ℕ}
    (hn : n < front.length) (fields : List Field) :
    Cut (⟨0, front.length, value⟩ :: fields.map (Field.moved front.length)) n
      (items settings (front.take n)) := by
  rcases Nat.eq_zero_or_pos n with rfl | hpos
  · have hcut := Cut.between (mem_boundaries_cons.mpr (Or.inl rfl) :
      0 ∈ boundaries (⟨0, front.length, value⟩ :: fields.map (Field.moved front.length)))
    rw [endingBy_cons_of_lt hn] at hcut
    rwa [List.take_zero, items_nil]
  · have hne : front.take n ≠ [] := by
      rw [← List.length_pos_iff, List.length_take_of_le hn.le]
      exact hpos
    have hcut : Cut (⟨0, front.length, value⟩ :: fields.map (Field.moved front.length)) n _ :=
      .inside (notMem_boundaries_cons hpos hn) (isGreatest_start hpos hn)
    rw [endingBy_cons_of_lt hn] at hcut
    rwa [items_of_error hne (decode_take hfront hn)]

/-- A value in front of a stream moves the cut, and is itself complete. -/
theorem Cut.behind {front rest : Bytes} {value : UInt64} (hfront : Encodes settings front value)
    {n : ℕ} (hn : front.length ≤ n) {fields : List Field}
    (h : Cut fields (n - front.length) (items settings (rest.take (n - front.length)))) :
    Cut (⟨0, front.length, value⟩ :: fields.map (Field.moved front.length)) n
      (items settings ((front ++ rest).take n)) := by
  have hmem : n ∈ boundaries (⟨0, front.length, value⟩ :: fields.map (Field.moved front.length)) ↔
      n - front.length ∈ boundaries fields :=
    mem_boundaries_cons_of_le hfront.terminated.length_pos hn
  have htake : (front ++ rest).take n = front ++ rest.take (n - front.length) := by
    rw [List.take_append, List.take_of_length_le hn]
  rw [htake, items_encoded hfront]
  generalize items settings (rest.take (n - front.length)) = found at h
  cases h with
  | between boundary =>
    have hcut := Cut.between (hmem.mpr boundary)
    rw [endingBy_cons_of_le hn] at hcut
    simpa [Function.comp_def] using hcut
  | @inside start no_boundary greatest =>
    have hlt : start < n - front.length := greatest.1.2
    have hleft : n - (start + front.length) = n - front.length - start := by omega
    have hcut := Cut.inside (mt hmem.mp no_boundary) (isGreatest_moved (by omega) greatest)
    rw [endingBy_cons_of_le hn, hleft] at hcut
    simpa [Function.comp_def, Fault.rebase] using hcut

/-- Every cut of a concatenation is between two values or inside one of them. -/
theorem cut_joined {parts : List (Bytes × UInt64)} (h : EachDecodes settings parts) {n : ℕ}
    (hn : n ≤ (joined parts).length) :
    Cut (laidOut parts) n (items settings ((joined parts).take n)) := by
  induction parts generalizing n with
  | nil =>
    have hzero : n = 0 := Nat.le_zero.mp hn
    have hcut : Cut [] n _ := .between (by simp [boundaries, hzero])
    simpa [endingBy] using hcut
  | cons part parts ih =>
    have hfront : Encodes settings part.1 part.2 := decode_eq_ok_nil_iff.mp (h part (by simp))
    rw [laidOut_cons, joined_cons]
    rcases Nat.lt_or_ge n part.1.length with hlt | hge
    · rw [List.take_append_of_le_length hlt.le]
      exact Cut.front hfront hlt (laidOut parts)
    · rw [joined_cons, List.length_append] at hn
      exact Cut.behind hfront hge (ih h.tail (by omega))

/-- All that a cut can be blamed for is that bytes are missing. -/
theorem Cut.eq_incomplete {fields : List Field} {n : ℕ} {found : List Item}
    (h : Cut fields n found) {fault : Fault} (hfault : .error fault ∈ found) :
    ∃ start, fault = .incomplete start (n - start) := by
  cases h with
  | between boundary => simp at hfault
  | @inside start no_boundary greatest => exact ⟨start, by simpa using hfault⟩

/-- **Truncation.** A stream that is read without a fault is cut off behind `n`
bytes. The fields that end there or before are read as they were. If the cut is at
a boundary there is nothing else. If it is not, there is one fault more: bytes are
missing from the last boundary before the cut on, where there are `n - start` of
them. A cut never makes a number too large, or an encoding too long. And of one
complete value, every proper part from the front is reported as just this. -/
theorem items_take (settings : Settings) :
    (∀ bytes : Bytes, (∀ fault, .error fault ∉ items settings bytes) →
      items settings bytes = (completeFields settings bytes).map .ok ∧
      ∀ n ≤ bytes.length,
        (n ∈ boundaries (completeFields settings bytes) →
          items settings (bytes.take n) =
            (endingBy n (completeFields settings bytes)).map .ok) ∧
        (n ∉ boundaries (completeFields settings bytes) →
          ∃ start,
            IsGreatest {b | b ∈ boundaries (completeFields settings bytes) ∧ b < n} start ∧
            items settings (bytes.take n) =
              (endingBy n (completeFields settings bytes)).map .ok ++
                [.error (.incomplete start (n - start))]) ∧
        ∀ fault, .error fault ∈ items settings (bytes.take n) →
          (∀ i, fault ≠ .overflow i) ∧ ∀ i limit, fault ≠ .tooLong i limit) ∧
    (∀ (bytes : Bytes) (value : UInt64), decode settings bytes = .ok (value, []) →
      ∀ n < bytes.length, decode settings (bytes.take n) = .error (.incomplete 0 n)) := by
  constructor
  · intro bytes hclean
    rcases exists_parts hclean with ⟨parts, hparts, rfl⟩
    have hitems := items_joined hparts
    rw [completeFields_joined hparts]
    refine ⟨hitems, ?_⟩
    intro n hn
    have hcut := cut_joined hparts hn
    generalize items settings ((joined parts).take n) = found at hcut
    refine ⟨?_, ?_, ?_⟩
    · intro hboundary
      cases hcut with
      | between boundary => rfl
      | inside no_boundary greatest => exact absurd hboundary no_boundary
    · intro hinside
      cases hcut with
      | between boundary => exact absurd boundary hinside
      | inside no_boundary greatest => exact ⟨_, greatest, rfl⟩
    · intro fault hfault
      rcases hcut.eq_incomplete hfault with ⟨start, rfl⟩
      exact ⟨by simp, by simp⟩
  · intro bytes value hvalue n hn
    exact decode_take (decode_eq_ok_nil_iff.mp hvalue) hn

/-- Three values, the second of which is as long as the limit allows. Behind it the
cut leaves two of them, and inside it the first one and a fault, which is not about
the limit. -/
theorem items_take_inside :
    items ⟨.reject, some 3⟩ [0x01, 0xE5, 0x8E, 0x26, 0x7F] =
        [.ok ⟨0, 1, 1⟩, .ok ⟨1, 3, 624485⟩, .ok ⟨4, 1, 127⟩] ∧
      items ⟨.reject, some 3⟩ [0x01, 0xE5, 0x8E, 0x26] =
        [.ok ⟨0, 1, 1⟩, .ok ⟨1, 3, 624485⟩] ∧
      (∃ start, IsGreatest {b | b ∈ [0, 1, 4, 5] ∧ b < 3} start ∧
        items ⟨.reject, some 3⟩ [0x01, 0xE5, 0x8E] =
          [.ok ⟨0, 1, 1⟩, .error (.incomplete start (3 - start))]) ∧
      decode ⟨.reject, some 3⟩ [0xE5, 0x8E] = .error (.incomplete 0 2) := by
  have hitems : items ⟨.reject, some 3⟩ [0x01, 0xE5, 0x8E, 0x26, 0x7F] =
      [.ok ⟨0, 1, 1⟩, .ok ⟨1, 3, 624485⟩, .ok ⟨4, 1, 127⟩] := by
    decide +kernel
  have hvalue : decode ⟨.reject, some 3⟩ [0xE5, 0x8E, 0x26] = .ok (624485, []) := by
    decide +kernel
  have hclean : ∀ fault, .error fault ∉ items ⟨.reject, some 3⟩ [0x01, 0xE5, 0x8E, 0x26, 0x7F] := by
    intro fault
    rw [hitems]
    simp
  rcases items_take ⟨.reject, some 3⟩ with ⟨hstream, hfront⟩
  have hcut := (hstream _ hclean).2
  rw [completeFields, hitems] at hcut
  exact ⟨hitems, (hcut 4 (by decide)).1 (by decide), (hcut 3 (by decide)).2.1 (by decide),
    hfront _ _ hvalue 2 (by decide)⟩

end Base128

import Base128.Proofs.Chunks

/-! # Streams as concatenations

A stream that is read to its end without a fault is a number of encodings, one
behind the other, and it can be taken apart **in one way only**.

* `laidOut` — the fields of encodings that follow one another.
* `items_joined_append` — these are the items of the concatenation, and the items
  of what stands behind it follow.
* `exists_joined_append` — every stream is such a concatenation, up to something
  that does not decode.
* `Field.slice`, `slices_laidOut` — the bytes of a field, which are those of the
  encoding that it was read from.
* `stream_parses_uniquely` — so streams without a fault and lists of encodings
  are the same thing.
-/

namespace Base128

/-! ## From encodings to a stream -/

/-- The bytes of encodings that follow one another. -/
def joined (parts : List (Bytes × UInt64)) : Bytes := (parts.map Prod.fst).flatten

/-- The fields of encodings that follow one another: each starts where those
before it end. -/
def laidOut (parts : List (Bytes × UInt64)) : List Field :=
  parts.mapIdx fun i part =>
    ⟨((parts.take i).map fun before => before.1.length).sum, part.1.length, part.2⟩

/-- Each part decodes by itself, with nothing left over. -/
def EachDecodes (settings : Settings) (parts : List (Bytes × UInt64)) : Prop :=
  ∀ part ∈ parts, decode settings part.1 = .ok (part.2, [])

variable {settings : Settings} {bytes : Bytes} {parts : List (Bytes × UInt64)}

@[simp] theorem joined_nil : joined [] = [] := rfl

@[simp] theorem joined_cons (part : Bytes × UInt64) (parts : List (Bytes × UInt64)) :
    joined (part :: parts) = part.1 ++ joined parts := rfl

@[simp] theorem joined_append (front back : List (Bytes × UInt64)) :
    joined (front ++ back) = joined front ++ joined back := by
  simp [joined]

@[simp] theorem laidOut_nil : laidOut [] = [] := rfl

/-- One more part in front moves all fields by its length. -/
theorem laidOut_cons (part : Bytes × UInt64) (parts : List (Bytes × UInt64)) :
    laidOut (part :: parts) =
      ⟨0, part.1.length, part.2⟩ :: (laidOut parts).map (Field.moved part.1.length) := by
  unfold laidOut
  rw [List.mapIdx_cons]
  congr 1
  apply List.ext_getElem
  · simp
  · intro i hi hi'
    simp [Field.moved, Nat.add_comm]

@[simp] theorem length_laidOut (parts : List (Bytes × UInt64)) :
    (laidOut parts).length = parts.length := by
  simp [laidOut]

theorem map_length_laidOut (parts : List (Bytes × UInt64)) :
    (laidOut parts).map Field.length = parts.map fun part => part.1.length := by
  induction parts with
  | nil => rfl
  | cons part parts ih =>
    rw [laidOut_cons, List.map_cons, List.map_map, List.map_cons, ← ih]
    rfl

/-- Fields that are laid out start where those before them end. -/
theorem offset_laidOut (parts : List (Bytes × UInt64)) (i : ℕ) (hi : i < (laidOut parts).length) :
    (laidOut parts)[i].offset = (((laidOut parts).take i).map Field.length).sum := by
  rw [List.map_take, map_length_laidOut, ← List.map_take]
  simp [laidOut]

/-- An encoding is what decodes by itself. -/
theorem decode_eq_ok_nil_iff {value : UInt64} :
    decode settings bytes = .ok (value, []) ↔ Encodes settings bytes value := by
  rw [decode_eq_ok_iff]
  simp

theorem EachDecodes.tail {part : Bytes × UInt64} (h : EachDecodes settings (part :: parts)) :
    EachDecodes settings parts := by
  intro other hother
  exact h other (List.mem_cons_of_mem part hother)

theorem EachDecodes.cons {part : Bytes × UInt64}
    (hpart : decode settings part.1 = .ok (part.2, [])) (h : EachDecodes settings parts) :
    EachDecodes settings (part :: parts) := by
  intro other hother
  rcases List.mem_cons.mp hother with rfl | hinside
  · exact hpart
  · exact h other hinside

/-- The items of a concatenation are the fields of its parts, and then the items
of what stands behind it. -/
theorem items_joined_append (h : EachDecodes settings parts) (rest : Bytes) :
    items settings (joined parts ++ rest) = (laidOut parts).map .ok ++
      (items settings rest).map (Item.moved (joined parts).length) := by
  induction parts with
  | nil => simp
  | cons part parts ih =>
    have hfront : Encodes settings part.1 part.2 := decode_eq_ok_nil_iff.mp (h part (by simp))
    rw [joined_cons, List.append_assoc, items_encoded hfront, ih h.tail, laidOut_cons]
    simp [Function.comp_def]

theorem items_joined (h : EachDecodes settings parts) :
    items settings (joined parts) = (laidOut parts).map .ok := by
  have hitems := items_joined_append h []
  rw [List.append_nil] at hitems
  rw [hitems, items_nil, List.map_nil, List.append_nil]

theorem completeFields_joined (h : EachDecodes settings parts) :
    completeFields settings (joined parts) = laidOut parts := by
  rw [completeFields, items_joined h, Item.fields_map_ok]

/-! ## From a stream to encodings -/

/-- Every stream is a concatenation of encodings, with nothing behind it or
something that does not decode. -/
theorem exists_joined_append (settings : Settings) (bytes : Bytes) :
    ∃ parts rest, EachDecodes settings parts ∧ bytes = joined parts ++ rest ∧
      (rest = [] ∨ ∃ fault, items settings rest = [.error fault]) := by
  induction bytes using stream_induction settings with
  | finished => exact ⟨[], [], by simp [EachDecodes], rfl, Or.inl rfl⟩
  | malformed bytes fault hne hdecode =>
    exact ⟨[], bytes, by simp [EachDecodes], rfl, Or.inr ⟨fault, items_of_error hne hdecode⟩⟩
  | value front value behind hencodes ih =>
    rcases ih with ⟨parts, rest, hparts, hbehind, hrest⟩
    have hfront : decode settings front = .ok (value, []) := decode_eq_ok_nil_iff.mpr hencodes
    refine ⟨(front, value) :: parts, rest, hparts.cons hfront, ?_, hrest⟩
    rw [hbehind, joined_cons, List.append_assoc]

/-- The fields of a stream follow one another. -/
theorem completeFields_laidOut (settings : Settings) (bytes : Bytes) :
    ∃ parts, completeFields settings bytes = laidOut parts := by
  induction bytes using stream_induction settings with
  | finished => exact ⟨[], completeFields_nil settings⟩
  | malformed bytes fault hne hdecode => exact ⟨[], completeFields_of_error hne hdecode⟩
  | value front value rest hfront ih =>
    rcases ih with ⟨parts, hparts⟩
    exact ⟨(front, value) :: parts, by rw [completeFields_encoded hfront, hparts, laidOut_cons]⟩

/-- A stream without a fault is nothing but a concatenation. -/
theorem exists_parts (h : ∀ fault, .error fault ∉ items settings bytes) :
    ∃ parts, EachDecodes settings parts ∧ bytes = joined parts := by
  rcases exists_joined_append settings bytes with ⟨parts, rest, hparts, rfl, rfl | ⟨fault, hrest⟩⟩
  · exact ⟨parts, hparts, List.append_nil _⟩
  · -- what does not decode would be an item
    have hmem : .error (fault.rebase (joined parts).length) ∈
        items settings (joined parts ++ rest) := by
      rw [items_joined_append hparts, hrest]
      simp
    exact absurd hmem (h _)

/-- The bytes that a field was read from. -/
def Field.slice (bytes : Bytes) (field : Field) : Bytes :=
  (bytes.drop field.offset).take field.length

/-- The slice of a field at the front is the front. -/
theorem Field.slice_front (front rest : Bytes) (value : UInt64) :
    Field.slice (front ++ rest) ⟨0, front.length, value⟩ = front := by
  simp [Field.slice]

/-- Bytes in front of a stream move the slices and do not change them. -/
theorem Field.slice_moved (front rest : Bytes) (field : Field) :
    (field.moved front.length).slice (front ++ rest) = field.slice rest := by
  unfold Field.slice Field.moved
  rw [Nat.add_comm, ← List.drop_drop, List.drop_left]

/-- The slices of a concatenation are its parts. -/
theorem slices_laidOut (parts : List (Bytes × UInt64)) :
    (laidOut parts).map (Field.slice (joined parts)) = parts.map Prod.fst := by
  induction parts with
  | nil => rfl
  | cons part parts ih =>
    rw [laidOut_cons, joined_cons, List.map_cons, List.map_map, List.map_cons,
      Field.slice_front, ← ih]
    congr 1
    apply List.map_congr_left
    intro field _
    exact Field.slice_moved part.1 (joined parts) field

/-- A field of a concatenation has the place, the length and the value of the
part it was read from. -/
theorem slice_of_mem_laidOut (h : EachDecodes settings parts) {field : Field}
    (hfield : field ∈ laidOut parts) :
    (field.slice (joined parts)).length = field.length ∧
      decode settings (field.slice (joined parts)) = .ok (field.value, []) := by
  induction parts generalizing field with
  | nil => simp at hfield
  | cons part parts ih =>
    rw [laidOut_cons] at hfield
    rcases List.mem_cons.mp hfield with rfl | hbehind
    · rw [joined_cons, Field.slice_front]
      exact ⟨rfl, h part (by simp)⟩
    · rcases List.mem_map.mp hbehind with ⟨other, hother, rfl⟩
      rw [joined_cons, Field.slice_moved]
      exact ih h.tail hother

/-! ## Taking apart -/

/-- Byte strings that decode by themselves, with their values. -/
theorem exists_values {slices : List Bytes}
    (h : ∀ slice ∈ slices, ∃ value, decode settings slice = .ok (value, [])) :
    ∃ parts, EachDecodes settings parts ∧ parts.map Prod.fst = slices := by
  induction slices with
  | nil => exact ⟨[], by simp [EachDecodes], rfl⟩
  | cons slice slices ih =>
    rcases h slice (by simp) with ⟨value, hvalue⟩
    rcases ih (fun s hs => h s (List.mem_cons_of_mem slice hs)) with ⟨parts, hparts, hslices⟩
    exact ⟨(slice, value) :: parts, hparts.cons hvalue, by rw [List.map_cons, hslices]⟩

/-- **Unique parsing.** A concatenation of byte strings that each decode by
themselves is read as just these, each at its place, without a fault. And a stream
that is read without a fault is the concatenation of the slices of its fields,
which follow one another without a gap and decode by themselves. No other list
of byte strings that each decode by themselves has this concatenation. -/
theorem stream_parses_uniquely (settings : Settings) :
    (∀ parts : List (Bytes × UInt64),
      (∀ part ∈ parts, decode settings part.1 = .ok (part.2, [])) →
      items settings (parts.map Prod.fst).flatten =
        parts.mapIdx fun i part =>
          .ok ⟨((parts.take i).map fun before => before.1.length).sum, part.1.length, part.2⟩) ∧
    (∀ bytes : Bytes, (∀ fault, .error fault ∉ items settings bytes) →
      ∃ fields : List Field, items settings bytes = fields.map .ok ∧
        (fields.map (Field.slice bytes)).flatten = bytes ∧
        (∀ i (hi : i < fields.length),
          fields[i].offset = ((fields.take i).map Field.length).sum) ∧
        (∀ field ∈ fields, (field.slice bytes).length = field.length ∧
          decode settings (field.slice bytes) = .ok (field.value, [])) ∧
        ∀ slices : List Bytes,
          (∀ slice ∈ slices, ∃ value, decode settings slice = .ok (value, [])) →
          slices.flatten = bytes → slices = fields.map (Field.slice bytes)) := by
  constructor
  · intro parts hparts
    have hitems : items settings (parts.map Prod.fst).flatten = (laidOut parts).map .ok :=
      items_joined hparts
    rw [hitems]
    apply List.ext_getElem
    · simp [laidOut]
    · intro i hi hi'
      simp [laidOut]
  · intro bytes hclean
    rcases exists_parts hclean with ⟨parts, hparts, rfl⟩
    refine ⟨laidOut parts, items_joined hparts, ?_, offset_laidOut parts, ?_, ?_⟩
    · rw [slices_laidOut]
      rfl
    · intro field hfield
      exact slice_of_mem_laidOut hparts hfield
    · -- another list is read in the same way, and so has the same slices
      intro slices hslices hflatten
      rcases exists_values hslices with ⟨others, hothers, rfl⟩
      have hjoined : joined others = joined parts := hflatten
      have hitems := items_joined hothers
      rw [hjoined, items_joined hparts] at hitems
      have hfields : laidOut parts = laidOut others :=
        List.map_injective_iff.mpr (fun _ _ h => Except.ok.inj h) hitems
      rw [hfields, ← hjoined, slices_laidOut]

/-- Three values, the second of them padded: put together and taken apart. -/
theorem stream_parses_uniquely_three :
    items {} [0x01, 0x80, 0x80, 0x00, 0x7F] =
        [.ok ⟨0, 1, 1⟩, .ok ⟨1, 3, 0⟩, .ok ⟨4, 1, 127⟩] ∧
      ∃ fields : List Field,
        items {} [0x01, 0x80, 0x80, 0x00, 0x7F] = fields.map .ok ∧
        [[0x01], [0x80, 0x80, 0x00], [0x7F]] =
          fields.map (Field.slice [0x01, 0x80, 0x80, 0x00, 0x7F]) := by
  have hparts : ∀ part ∈ ([([0x01], 1), ([0x80, 0x80, 0x00], 0), ([0x7F], 127)] :
      List (Bytes × UInt64)), decode {} part.1 = .ok (part.2, []) := by
    decide +kernel
  have hitems := (stream_parses_uniquely {}).1 _ hparts
  refine ⟨hitems, ?_⟩
  have hclean : ∀ fault, .error fault ∉ items {} [0x01, 0x80, 0x80, 0x00, 0x7F] := by
    intro fault hmem
    rw [show items {} [0x01, 0x80, 0x80, 0x00, 0x7F] = _ from hitems] at hmem
    simp at hmem
  rcases (stream_parses_uniquely {}).2 _ hclean with ⟨fields, hfields, -, -, -, honly⟩
  refine ⟨fields, hfields, honly _ ?_ rfl⟩
  intro slice hslice
  rcases List.mem_map.mp (show slice ∈ ([([0x01], 1), ([0x80, 0x80, 0x00], 0), ([0x7F], 127)] :
      List (Bytes × UInt64)).map Prod.fst from hslice) with ⟨part, hpart, rfl⟩
  exact ⟨part.2, hparts part hpart⟩

end Base128

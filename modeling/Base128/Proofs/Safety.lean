import Base128.Proofs.Commands
import Base128.Proofs.Paging

/-! # No use of the library traps

The guard that makes an operation safe may stand far from it. A listing is summed up by
subtracting a start that was compared with the length when the listing was collected, and
a buffer is taken as the first one because one was decoded before.

* `Checked.text_eq` — a listing is summed up without a trap **if it was collected**.
* `Checked.render_eq` — there is a first buffer where it is taken.
* `Untrapped`, `never_traps` — no operation of any use of the library traps, and all of
  them give what the library gives.
-/

namespace Base128

/-! ## The commands do not trap -/

/-- Every buffer is one of the arguments, decoded. -/
theorem Readout.exists_argument {arguments : List String} {buffers : List Bytes}
    (h : Readout.buffers arguments = .ok buffers) :
    ∀ buffer ∈ buffers, ∃ argument ∈ arguments, HexArgument.decode argument = .ok buffer := by
  induction arguments generalizing buffers with
  | nil =>
    obtain rfl := Except.ok.inj h
    simp
  | cons argument arguments ih =>
    rw [Readout.buffers] at h
    cases hdecode : HexArgument.decode argument with
    | error fault => simp [hdecode] at h
    | ok first =>
      cases hothers : Readout.buffers arguments with
      | error failure => simp [hdecode, hothers, Except.map] at h
      | ok others =>
        simp only [hdecode, hothers, Except.map, Except.ok.injEq] at h
        intro buffer hbuffer
        rw [← h] at hbuffer
        rcases List.mem_cons.mp hbuffer with rfl | hbuffer
        · exact ⟨argument, List.mem_cons_self, hdecode⟩
        · rcases ih hothers buffer hbuffer with ⟨other, hmem, hother⟩
          exact ⟨other, List.mem_cons_of_mem _ hmem, hother⟩

namespace Checked

variable {settings : Settings} {bytes : Bytes}

theorem check_eq (h : bytes.length < wordSize) :
    check settings bytes = .ok (Validity.check settings bytes) :=
  (Reader.At.ofBytes settings bytes).walk_eq h (Nat.zero_le _)

/-- The largest word is no limit on what a file can hold. -/
theorem collect_getD (h : bytes.length < wordSize) (skip : ℕ) (count : Option ℕ) :
    Listing.collect settings bytes skip (some (count.getD (wordSize - 1))) =
      Listing.collect settings bytes skip count := by
  cases count with
  | some limit => rfl
  | none =>
    have hpending : (Cursor.ofBytes settings (bytes.drop skip)).pending ≤ wordSize - 1 := by
      show (bytes.drop skip).length ≤ wordSize - 1
      rw [List.length_drop]
      omega
    unfold Listing.collect Listing.selected items
    rw [Cursor.exhaust_eq_take hpending]
    rfl

theorem collect_eq (h : bytes.length < wordSize) (skip : ℕ) (count : Option ℕ) :
    collect settings bytes skip count = .ok (Listing.collect settings bytes skip count) := by
  rw [← collect_getD h, collect, Listing.collect]
  split_ifs with hskip
  · rfl
  · have hlength : skip + (bytes.drop skip).length < wordSize := by
      rw [List.length_drop]
      omega
    rw [suffix_eq (Nat.not_lt.mp hskip), ok_bind,
      (Reader.At.ofBytes settings (bytes.drop skip)).gather_eq hlength]
    rfl

/-- **What was collected can be summed up**: the listing starts within the file, and the
last field ends between the start of the listing and the end of the file. -/
theorem text_eq {skip : ℕ} {count : Option ℕ} {fields : List Field} (h : bytes.length < wordSize)
    (hcollect : Listing.collect settings bytes skip count = .ok fields) :
    text fields skip bytes.length = .ok (Listing.text fields skip bytes.length) := by
  have hskip : skip ≤ bytes.length := by
    by_contra hlarge
    rw [Listing.collect, if_pos (Nat.not_le.mp hlarge)] at hcollect
    simp at hcollect
  rw [← collect_getD h] at hcollect
  rcases Listing.exists_page hskip hcollect with ⟨parts, rest, hpage⟩
  have hfrom := hpage.pageEnd_eq
  have hto := hpage.pageEnd_le hskip
  have hcovered : covered fields skip = .ok (Listing.covered fields skip) := by
    unfold covered Listing.covered
    rw [Listing.pageEnd] at hfrom hto
    cases hlast : fields.getLast? with
    | none => rfl
    | some field =>
      simp only [hlast, Field.stop] at hfrom hto
      simp only [add_eq (show field.offset + field.length < wordSize by omega), ok_bind,
        sub_eq (show skip ≤ field.offset + field.length by omega), Field.stop]
  rw [text, hcovered, sub_eq hskip]
  rfl

theorem listing_eq (h : bytes.length < wordSize) (skip : ℕ) (count : Option ℕ) :
    listing settings bytes skip count =
      .ok ((Listing.collect settings bytes skip count).map fun fields =>
        Listing.text fields skip bytes.length) := by
  rw [listing, collect_eq h, ok_bind]
  cases hcollect : Listing.collect settings bytes skip count with
  | error failure => rfl
  | ok fields =>
    simp only [text_eq h hcollect, ok_bind]
    rfl

/-- There is a first buffer wherever one was decoded, and what is left of it is no longer
than it was. -/
theorem render_eq {arguments : List String} (all : Bool)
    (h : ∀ argument ∈ arguments, ∀ buffer, HexArgument.decode argument = .ok buffer →
      buffer.length < wordSize) :
    render settings all arguments = .ok (Readout.render settings all arguments) := by
  unfold render Readout.render
  cases hbuffers : Readout.buffers arguments with
  | error failure => rfl
  | ok buffers =>
    cases buffers with
    | nil => rfl
    | cons bytes others =>
      rcases Readout.exists_argument hbuffers bytes List.mem_cons_self with ⟨argument, hmem, hdecoded⟩
      have hbytes := h argument hmem bytes hdecoded
      simp only [decodeFirst, Base128.decodeFirst, decode_eq hbytes, ok_bind]
      cases hdecode : Base128.decode settings bytes with
      | error fault => rfl
      | ok result =>
        rcases result with ⟨value, rest⟩
        have hless := length_of_decode hdecode
        cases all with
        | true =>
          simp only [first, ok_bind, if_true]
          exact (Reader.At.ofBytes settings bytes).table_eq hbytes
        | false =>
          simp only [first, ok_bind, Bool.false_eq_true, if_false, sub_eq hless.le, pure_eq]
          rfl

end Checked

/-! ## What a caller can rely on -/

/-- Whatever is done with `bytes`, no operation on the way traps. -/
structure Untrapped (settings : Settings) (bytes : Bytes) : Prop where
  /-- Calls in any order are answered as by a cursor. Behind them the position lies in
  the buffer, and the buffer can be sliced there. -/
  reads : ∀ calls, ∃ reader,
    (Reader.ofBytes settings bytes).answered calls =
        .ok ((Cursor.ofBytes settings bytes).answered calls, reader) ∧
      reader.At bytes ((Cursor.ofBytes settings bytes).afterCalls calls) ∧
      reader.remaining = .ok ((Cursor.ofBytes settings bytes).afterCalls calls).unread
  /-- A fault that is answered names a position in the buffer. -/
  places : ∀ calls call fault,
    (call, .fault fault) ∈ (Cursor.ofBytes settings bytes).answered calls →
    ∀ place ∈ fault.place?, place ≤ bytes.length
  /-- A single value is decoded. -/
  decodes : Checked.decode settings bytes = .ok (decode settings bytes)
  /-- A file is checked. -/
  checks : Checked.check settings bytes = .ok (Validity.check settings bytes)
  /-- A file is listed from any place, in the file or beyond, with any count. -/
  lists : ∀ skip count, Checked.listing settings bytes skip count =
    .ok ((Listing.collect settings bytes skip count).map fun fields =>
      Listing.text fields skip bytes.length)

/-- **No operation traps.** On fewer bytes than half of what a word counts, every sum
fits a word, every difference is of a smaller number from a larger one, and every slice,
element and shift is in range, in reads of any kind and order and in each command. -/
theorem never_traps (settings : Settings) :
    (∀ bytes : Bytes, bytes.length < 2 ^ 63 → Untrapped settings bytes) ∧
      ∀ all arguments,
        (∀ argument ∈ arguments, ∀ buffer, HexArgument.decode argument = .ok buffer →
          buffer.length < 2 ^ 63) →
        Checked.render settings all arguments = .ok (Readout.render settings all arguments) := by
  have hhalf : 2 ^ 63 < Checked.wordSize := by
    show 2 ^ 63 < 2 ^ 64
    decide
  constructor
  · intro bytes hlength
    have hbytes : bytes.length < Checked.wordSize := hlength.trans hhalf
    refine ⟨?_, ?_, Checked.decode_eq hbytes, Checked.check_eq hbytes, Checked.listing_eq hbytes⟩
    · intro calls
      rcases (Reader.At.ofBytes settings bytes).answered hbytes calls with ⟨last, hanswered, hlast⟩
      exact ⟨last, hanswered, hlast, hlast.remaining_eq⟩
    · intro calls call fault hanswered place hplace
      have hle := Cursor.place_le_of_answered hanswered place hplace
      rwa [(Reader.At.ofBytes settings bytes).offset_add_length] at hle
  · intro all arguments harguments
    apply Checked.render_eq
    intro argument hmem buffer hdecode
    exact (harguments argument hmem buffer hdecode).trans hhalf

/-- Summing up a listing that starts beyond the file would trap. From the largest place
of all it is refused before, and from a place in the file it is summed up. A buffer is
taken as an element only where there is one. -/
theorem never_traps_beyond_end :
    Checked.text [] 0xFFFFFFFFFFFFFFFF 5 = .error .underflow ∧
      Checked.listing {} [0x07, 0xE5, 0x8E, 0x26, 0x80] 0xFFFFFFFFFFFFFFFF none =
        .ok (.error (.skipPastEnd 0xFFFFFFFFFFFFFFFF 5)) ∧
      Checked.listing {} [0x07, 0xE5, 0x8E, 0x26, 0x80] 1 (some 1) =
        .ok (.ok ("0x0001  len=3  value=624485 (0x98765)\n---\n"
          ++ "1 value, 3 of 4 bytes decoded\n")) ∧
      Checked.first [] = .error .outOfRange ∧
      Checked.render {} false [] = .ok (.error (.undecodable (.missingArgument 0))) ∧
      Checked.render {} true ["07"] = .ok (.ok "0x0000  len=1  value=7 (0x7)\n") := by
  have hbytes := (never_traps {}).1 [0x07, 0xE5, 0x8E, 0x26, 0x80] (by decide)
  have hargument : HexArgument.decode "07" = .ok [0x07] := by
    decide +kernel
  refine ⟨by decide +kernel, ?_, ?_, rfl, ?_, ?_⟩
  · rw [hbytes.lists]
    decide +kernel
  · rw [hbytes.lists]
    decide +kernel
  · rw [(never_traps {}).2 false [] (by simp)]
    decide +kernel
  · have hshort : ∀ argument ∈ ["07"], ∀ buffer, HexArgument.decode argument = .ok buffer →
        buffer.length < 2 ^ 63 := by
      intro argument hmem buffer hdecode
      rw [List.mem_singleton.mp hmem, hargument] at hdecode
      rw [← Except.ok.inj hdecode]
      decide
    rw [(never_traps {}).2 true ["07"] hshort]
    decide +kernel

end Base128

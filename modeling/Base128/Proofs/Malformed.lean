import Base128.Listing
import Base128.Proofs.Reads

/-! # Malformed values in a listing

A listing that meets a malformed value names a place twice: the message says
where the value starts, and the fault behind it says what is wrong and where.
The first is a place in the file. The second is counted **from the bytes that
were listed**, which is the same only where nothing was skipped.

* `decode_error_position` — the byte that a fault complains about.
* `Fault.rebase_inj` — moving a fault by another base gives another fault.
* `Listing.gather_take_eq_error` — a listing fails at the value that the
  message names, with the fault of decoding from there.
* `Listing.collect_malformed_position` — where the positions of the fault lie
  in the file, and that they agree with the message exactly without a skip.
-/

namespace Base128

variable {settings : Settings} {bytes : Bytes}

/-! ## Positions in a fault -/

/-- Every fault of decoding names a position, and the byte there is the one to
blame: the number became too large with it, or it is the first beyond the
limit. Where the bytes ended, the position is that of the first byte. -/
theorem decode_error_position {fault : Fault} (h : decode settings bytes = .error fault) :
    fault = .incomplete 0 bytes.length ∨
      (∃ index, fault = .overflow index ∧ index < bytes.length ∧
        magnitude (bytes.take index) < 2 ^ 64 ∧
        2 ^ 64 ≤ magnitude (bytes.take (index + 1))) ∨
      (∃ limit, fault = .tooLong limit limit ∧ limit < bytes.length ∧
        settings.maxLength = some limit) := by
  have hending := readFront_eq_iff.mp (decode_eq_error_iff.mp h)
  cases hending with
  | incomplete passed => exact Or.inl rfl
  | @tooLong front rest byte passed limit =>
    exact Or.inr (Or.inr ⟨front.length, rfl, by simp, limit⟩)
  | @overflow front rest byte passed allowed refused =>
    -- the number was still small before `byte`, since `front` was passed
    have hrefused : settings.overflow = .reject ∧ 2 ^ 64 ≤ magnitude (front ++ [byte]) := by
      simpa [Settings.Fits] using refused
    have htake : (front ++ byte :: rest).take (front.length + 1) = front ++ [byte] := by
      simp [List.take_append]
    refine Or.inr (Or.inl ⟨front.length, rfl, by simp, ?_⟩)
    rw [List.take_left, htake]
    exact ⟨passed.fits hrefused.1, hrefused.2⟩

/-- The base by which a fault of decoding was moved can be told from it. -/
theorem Fault.rebase_inj {fault : Fault} (h : decode settings bytes = .error fault) {a b : ℕ} :
    fault.rebase a = fault.rebase b ↔ a = b := by
  rcases decode_error_position h with rfl | ⟨index, rfl, -⟩ | ⟨limit, rfl, -⟩
  · simp [Fault.rebase]
  · simp [Fault.rebase]
  · simp [Fault.rebase]

namespace Listing

/-! ## Where a listing stops -/

/-- A listing takes items from the front, be they limited in number or not. -/
theorem selected_eq_take (settings : Settings) (bytes : Bytes) (count : Option ℕ) :
    ∃ limit, selected settings bytes count = ((Cursor.ofBytes settings bytes).take limit).1 := by
  cases count with
  | none => exact ⟨_, congrArg Prod.fst (Cursor.exhaust_eq_take le_rfl)⟩
  | some limit => exact ⟨limit, rfl⟩

/-- If placing items fails, some value did not decode. It starts `consumed`
bytes behind the cursor, and the message names its place in the file, whereas
the fault was moved by its distance from the start of the stream. -/
theorem gather_take_eq_error {cursor : Cursor} {base count : ℕ} {failure : Failure}
    (h : gather base (base + cursor.offset) (cursor.take count).1 = .error failure) :
    ∃ consumed cause,
      failure = .malformed (base + cursor.offset + consumed)
        (cause.rebase (cursor.offset + consumed)) ∧
      consumed < cursor.unread.length ∧
      decode cursor.settings (cursor.unread.drop consumed) = .error cause := by
  -- each item that is a field moves the cursor, and with it the place expected
  induction count generalizing cursor with
  | zero => simp [Cursor.take, gather] at h
  | succ count ih =>
    rcases cursor.next_cases with ⟨-, hnext⟩ | ⟨-, hunread, cause, hdecode, hnext⟩ |
      ⟨-, value, rest, hdecode, hnext⟩
    · simp [Cursor.take, hnext, gather] at h
    · simp only [Cursor.take, hnext, gather, Except.error.injEq] at h
      exact ⟨0, cause, h.symm, List.length_pos_of_ne_nil hunread, hdecode⟩
    · -- the field is placed, and the fault lies behind it
      have hlength := length_of_decode hdecode
      have hdrop := (readFront_of_decode hdecode).2
      have hstop : ((cursor.fieldTo rest value).moved base).stop =
          base + (cursor.skipTo rest).offset := by
        simp only [Field.stop, Field.moved, Cursor.fieldTo, Cursor.skipTo_offset]
        omega
      simp only [Cursor.take, hnext, gather, hstop] at h
      cases htail : gather base (base + (cursor.skipTo rest).offset)
          ((cursor.skipTo rest).take count).1 with
      | ok fields =>
        rw [htail] at h
        simp [Except.map] at h
      | error other =>
        rw [htail] at h
        obtain rfl : other = failure := Except.error.inj h
        rcases ih htail with ⟨consumed, cause, hfailure, hconsumed, hcause⟩
        rw [Cursor.skipTo_unread] at hconsumed hcause
        refine ⟨cursor.unread.length - rest.length + consumed, cause, ?_, by omega, ?_⟩
        · rw [hfailure, Cursor.skipTo_offset]
          simp only [Nat.add_assoc]
        · rw [← List.drop_drop, hdrop]
          exact hcause

/-- **Positions of a malformed value.** If a listing fails on a malformed value,
the message names the place `start` in the file where the value starts, and
the cause is the fault of decoding from there, moved by `start - skip`: every
position in it lies `skip` bytes before the place in the file. It is the fault
moved to its place in the file exactly where nothing was skipped. -/
theorem collect_malformed_position {skip : ℕ} {count : Option ℕ} {failure : Failure}
    (hskip : skip ≤ bytes.length) (h : collect settings bytes skip count = .error failure) :
    ∃ start cause reported,
      failure = .malformed start reported ∧
      failure.chain =
        ["malformed ULEB128 value at offset " ++ Text.hexadecimal start, reported.message] ∧
      skip ≤ start ∧ start < bytes.length ∧
      decode settings (bytes.drop start) = .error cause ∧
      reported = cause.rebase (start - skip) ∧
      (reported = cause.rebase start ↔ skip = 0) ∧
      (∀ offset consumed, reported = .incomplete offset consumed →
        offset + skip = start ∧ start + consumed = bytes.length) ∧
      (∀ offset, reported = .overflow offset →
        start ≤ offset + skip ∧ offset + skip < bytes.length ∧
          magnitude ((bytes.drop start).take (offset + skip - start)) < 2 ^ 64 ∧
          2 ^ 64 ≤ magnitude ((bytes.drop start).take (offset + skip - start + 1))) ∧
      (∀ offset limit, reported = .tooLong offset limit →
        offset + skip = start + limit ∧ offset + skip < bytes.length ∧
          settings.maxLength = some limit) := by
  unfold collect at h
  rw [if_neg (Nat.not_lt.mpr hskip)] at h
  rcases selected_eq_take settings (bytes.drop skip) count with ⟨limit, htake⟩
  rw [htake] at h
  -- the cursor starts at the first byte that was not skipped, and counts from 0
  have hgather : gather skip (skip + (Cursor.ofBytes settings (bytes.drop skip)).offset)
      ((Cursor.ofBytes settings (bytes.drop skip)).take limit).1 = .error failure := h
  rcases gather_take_eq_error hgather with ⟨consumed, cause, hfailure, hconsumed, hcause⟩
  simp only [Cursor.ofBytes, Nat.add_zero, Nat.zero_add, List.drop_drop, List.length_drop]
    at hfailure hconsumed hcause
  have hbase : skip + consumed - skip = consumed := by omega
  refine ⟨skip + consumed, cause, cause.rebase consumed, hfailure, by rw [hfailure]; rfl,
    by omega, by omega, hcause, by rw [hbase], ?_, ?_⟩
  · rw [Fault.rebase_inj hcause]
    omega
  · -- the positions are those of decoding from the start of the value
    rcases decode_error_position hcause with rfl | ⟨index, rfl, hindex, hlarge⟩ |
      ⟨bound, rfl, hbound, hmax⟩
    · refine ⟨?_, by simp [Fault.rebase], by simp [Fault.rebase]⟩
      intro offset scanned heq
      simp only [Fault.rebase, Fault.incomplete.injEq, List.length_drop] at heq
      omega
    · refine ⟨by simp [Fault.rebase], ?_, by simp [Fault.rebase]⟩
      intro offset heq
      simp only [Fault.rebase, Fault.overflow.injEq] at heq
      rw [List.length_drop] at hindex
      have hplace : offset + skip - (skip + consumed) = index := by omega
      rw [hplace]
      exact ⟨by omega, by omega, hlarge⟩
    · refine ⟨by simp [Fault.rebase], by simp [Fault.rebase], ?_⟩
      intro offset limit heq
      simp only [Fault.rebase, Fault.tooLong.injEq] at heq
      rw [List.length_drop] at hbound
      obtain ⟨hoffset, rfl⟩ := heq
      exact ⟨by omega, by omega, hmax⟩

/-- An overflow behind a skipped byte and a listed value. The value starts at
byte 2 of the file and overflows at byte 11, of which the fault says 10. -/
theorem collect_malformed_position_overflow :
    collect {} (0x07 :: 0x01 :: List.replicate 9 0xFF ++ [0x02]) 1 none =
        .error (.malformed 2 (.overflow 10)) ∧
      ∃ start cause reported, Failure.malformed 2 (.overflow 10) = .malformed start reported ∧
        decode {} (List.drop start (0x07 :: 0x01 :: List.replicate 9 0xFF ++ [0x02] : Bytes)) =
          .error cause ∧
        reported = cause.rebase (start - 1) ∧ (reported = cause.rebase start ↔ 1 = 0) := by
  have h : collect {} (0x07 :: 0x01 :: List.replicate 9 0xFF ++ [0x02]) 1 none =
      .error (.malformed 2 (.overflow 10)) := by
    decide +kernel
  rcases collect_malformed_position (by decide) h with
    ⟨start, cause, reported, hfailure, -, -, -, hcause, hreported, hfile, -⟩
  exact ⟨h, start, cause, reported, hfailure, hcause, hreported, hfile⟩

/-- **A position that is not in the file's count.** Behind one skipped byte the
value that starts at byte 2 of the file is reported as starting at byte 1. -/
theorem malformed_position_behind_skip :
    collect {} [0x01, 0x02, 0x80] 1 none = .error (.malformed 2 (.incomplete 1 1)) ∧
      decode {} (([0x01, 0x02, 0x80] : Bytes).drop 2) = .error (.incomplete 0 1) ∧
      Fault.incomplete 1 1 ≠ (Fault.incomplete 0 1).rebase 2 := by
  refine ⟨by decide +kernel, by decide +kernel, ?_⟩
  simp [Fault.rebase]

end Listing

end Base128

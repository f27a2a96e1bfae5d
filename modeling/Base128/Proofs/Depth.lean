import Mathlib.Logic.Function.Iterate
import Base128.Proofs.Ending
import Base128.Proofs.Merging

/-! # The decoder at any depth

A value may be padded without end, so the loop over its bytes has no bound. Its 64-bit value
and its 32-bit count have one, and the question is what they hold once the bytes have outrun
them.

* `Progress.Reached` — the states in which the loop meets its bytes, by the steps of the loop.
* `Progress.reached_iff` — a byte is reached exactly **behind unfinished bytes**, and these
  alone determine the state.
* `Progress.value_of_scan` — once the count is beyond bit 64, the value stands.
* `iterate_add_seven` — a count that starts again would come back to low bits.
* `state_at_depth` — so value and count say the same at any depth: the groups up to here as
  a number modulo `2 ^ 64`, and the place of the next one.
-/

namespace Base128

/-! ## The count -/

/-- The count never goes back. -/
theorem le_nextShift (shift : UInt32) : shift ≤ nextShift shift := by
  have hroom : (0xFFFFFFFF - 7 : UInt32).toNat = 0xFFFFFFFF - 7 := rfl
  have hstep : (shift + 7).toNat = (shift.toNat + 7) % 2 ^ 32 := UInt32.toNat_add shift 7
  unfold nextShift
  split_ifs with h
  · rw [UInt32.le_iff_toNat_le, hroom] at h
    rw [UInt32.le_iff_toNat_le, hstep]
    omega
  · have hlt := shift.toNat_lt
    rw [UInt32.le_iff_toNat_le]
    show shift.toNat ≤ 0xFFFFFFFF
    omega

/-- A count that starts again would be seven bits a byte modulo `2 ^ 32`. -/
theorem iterate_add_seven (n : ℕ) :
    (fun shift : UInt32 => shift + 7)^[n] 0 = UInt32.ofNat (7 * n) := by
  induction n with
  | zero => rfl
  | succ n ih =>
    rw [Function.iterate_succ_apply', ih, Nat.mul_succ, UInt32.ofNat_add]
    rfl

/-! ## Prefixes of a byte string -/

/-- The first `i` groups as a sum over the bytes. -/
theorem magnitude_take_eq_sum {bytes : Bytes} {i : ℕ} (hi : i ≤ bytes.length) :
    magnitude (bytes.take i) =
      ∑ j ∈ Finset.range i, (bytes.getD j 0 &&& 0x7F).toNat * 2 ^ (7 * j) := by
  induction i with
  | zero => simp
  | succ i ih =>
    have hlt : i < bytes.length := hi
    have hbyte : bytes.getD i 0 = bytes[i] := by simp [hlt]
    rw [← List.take_concat_get' bytes i hlt, magnitude_concat, ih hlt.le, Finset.sum_range_succ,
      toNat_payload_eq_and, List.length_take_of_le hlt.le, hbyte]

namespace Progress

variable {settings : Settings} {bytes seen : Bytes} {progress next : Progress} {byte : UInt8}
  {i : ℕ}

/-! ## The states of the loop -/

/-- The loop over `bytes` meets the byte at index `i` in this state, or has run out of bytes
there. Every byte before was fed to the state in which it was met, and the value went on. -/
inductive Reached (settings : Settings) (bytes : Bytes) : ℕ → Progress → Prop where
  /-- Before the first byte. -/
  | start : Reached settings bytes 0 {}
  /-- One byte further on. -/
  | goesOn {i : ℕ} {progress next : Progress} {byte : UInt8}
      (reached : Reached settings bytes i progress) (met : bytes[i]? = some byte)
      (fed : progress.feed settings byte = .goesOn next) : Reached settings bytes (i + 1) next

/-- Behind unfinished bytes, the value goes on exactly where they stay unfinished. -/
theorem feed_after_eq_goesOn_iff (hseen : Unfinished settings seen) :
    (after seen).feed settings byte = .goesOn next ↔
      Unfinished settings (seen ++ [byte]) ∧ next = after (seen ++ [byte]) := by
  constructor
  · intro hfed
    rw [feed_after hseen.fits] at hfed
    split at hfed
    · simp at hfed
    · rename_i hexceeded
      split_ifs at hfed with hfits hlast
      have hunfinished : Unfinished settings (seen ++ [byte]) :=
        Unfinished.concat_iff.mpr ⟨hseen, Bool.eq_false_iff.mpr hlast,
          Settings.exceeded?_eq_none_iff.mp hexceeded, hfits⟩
      exact ⟨hunfinished, (Step.goesOn.inj hfed).symm⟩
  · rintro ⟨hunfinished, rfl⟩
    exact feed_after_of_unfinished hunfinished

/-- **The invariant of the loop.** What was passed is unfinished, and the state is the one
behind it. -/
theorem Reached.eq_after (h : Reached settings bytes i progress) :
    i ≤ bytes.length ∧ Unfinished settings (bytes.take i) ∧ progress = after (bytes.take i) := by
  induction h with
  | start => exact ⟨Nat.zero_le _, Unfinished.nil, after_nil.symm⟩
  | @goesOn i progress next byte reached met fed ih =>
    obtain ⟨-, hpassed, rfl⟩ := ih
    obtain ⟨hlt, hbyte⟩ := List.getElem?_eq_some_iff.mp met
    rw [feed_after_eq_goesOn_iff hpassed, ← hbyte, List.take_concat_get' bytes i hlt] at fed
    exact ⟨hlt, fed⟩

/-- The loop gets as far as its bytes are unfinished, and its states are those behind them. -/
theorem reached_iff :
    Reached settings bytes i progress ↔
      i ≤ bytes.length ∧ Unfinished settings (bytes.take i) ∧ progress = after (bytes.take i) := by
  constructor
  · exact Reached.eq_after
  · rintro ⟨hi, hpassed, rfl⟩
    induction i with
    | zero => exact .start
    | succ i ih =>
      have hlt : i < bytes.length := hi
      rw [← List.take_concat_get' bytes i hlt] at hpassed ⊢
      exact .goesOn (ih hlt.le hpassed.of_append) (List.getElem?_eq_getElem hlt)
        (feed_after_of_unfinished hpassed)

/-- What is answered in the end is answered from any state on the way. -/
theorem Reached.readFront_eq (h : Reached settings bytes i progress) :
    readFront settings bytes = progress.scan settings (bytes.drop i) := by
  obtain ⟨-, hpassed, rfl⟩ := h.eq_after
  rw [← readFront_append hpassed, List.take_append_drop]

/-! ## Value and count behind the bytes seen -/

theorem toNat_value_after (seen : Bytes) :
    (after seen).value.toNat = magnitude seen % 2 ^ 64 := UInt64.toNat_ofNat'

/-- The value lies below the place of the next group, and below bit 64. -/
theorem toNat_value_after_lt (seen : Bytes) :
    (after seen).value.toNat < 2 ^ min (7 * seen.length) 64 := by
  rw [toNat_value_after]
  rcases le_total (7 * seen.length) 64 with hle | hge
  · rw [min_eq_left hle]
    exact lt_of_le_of_lt (Nat.mod_le _ _) (magnitude_lt seen)
  · rw [min_eq_right hge]
    exact Nat.mod_lt _ (by decide)

/-- A byte adds its group at its place in the number, wherever the count stands. -/
theorem merged?_after_eq_add {merged : UInt64}
    (h : (after seen).merged? settings byte = some merged) :
    ∃ bits : UInt64, bits.toNat = (payload byte).toNat * 2 ^ (7 * seen.length) % 2 ^ 64 ∧
      merged = (after seen).value ||| bits ∧ (after seen).value &&& bits = 0 ∧
      merged.toNat = (after seen).value.toNat + bits.toNat := by
  have hbelow : (after seen).value.toNat < 2 ^ (after seen).shift.toNat := by
    rw [toNat_shift_after]
    apply lt_of_lt_of_le (toNat_value_after_lt seen)
    exact Nat.pow_le_pow_right (by decide) (by omega)
  refine ⟨placedLow (payload byte) (after seen).shift, ?_, eq_of_merged? h,
    and_placedLow_eq_zero hbelow, ?_⟩
  · rw [placedLow_eq, ofNat_mul_shift_after, UInt64.toNat_ofNat']
  · rw [eq_of_merged? h, toNat_or_placedLow hbelow]

/-! ## Late bytes -/

/-- Once the count is beyond bit 64, the value stands until the loop ends. -/
theorem value_of_scan {reading : Reading} (hshift : 64 ≤ progress.shift.toNat)
    (h : progress.scan settings bytes = .ok reading) : reading.value = progress.value := by
  induction bytes generalizing progress with
  | nil => simp [scan] at h
  | cons byte rest ih =>
    rw [scan] at h
    split at h
    · -- the value goes on, and so does the count
      rename_i next hfed
      obtain ⟨hmerged, -, hnext⟩ := merged?_of_feed_goesOn hfed
      have hle := UInt32.le_iff_toNat_le.mp (le_nextShift progress.shift)
      rw [ih (by rw [hnext]; omega) h, merged?_of_le hshift hmerged]
    · rename_i ended hfed
      rw [← Except.ok.inj h]
      exact merged?_of_le hshift (merged?_of_feed_ends hfed).1
    · simp at h

end Progress

/-- **The loop at any depth.** Let the loop over `bytes` reach index `i`. Its count is seven
bits a byte, or stands at its largest value; its value is the number that the first `i` bytes
write, modulo `2 ^ 64`, and lies below the place of the next group. So the bits that a byte
adds are none that the value has, and adding them is addition. From the eleventh byte on they
are none at all, so the value stands, also where the count stands still. A count that starts
again would bring late groups back to low bits, the first of them to bit 3. -/
theorem state_at_depth (settings : Settings) (bytes : Bytes) :
    (∀ i progress, Progress.Reached settings bytes i progress →
      readFront settings bytes = progress.scan settings (bytes.drop i) ∧
      i ≤ bytes.length ∧ progress.index = i ∧
      progress.shift.toNat = min (7 * i) (2 ^ 32 - 1) ∧
      progress.value.toNat =
        (∑ j ∈ Finset.range i, (bytes.getD j 0 &&& 0x7F).toNat * 2 ^ (7 * j)) % 2 ^ 64 ∧
      progress.value.toNat < 2 ^ min (7 * i) 64 ∧
      (∀ byte merged, progress.merged? settings byte = some merged →
        ∃ bits : UInt64, bits.toNat = (byte &&& 0x7F).toNat * 2 ^ (7 * i) % 2 ^ 64 ∧
          merged = progress.value ||| bits ∧ progress.value &&& bits = 0 ∧
          merged.toNat = progress.value.toNat + bits.toNat) ∧
      (10 ≤ i →
        (∀ byte merged, progress.merged? settings byte = some merged →
          merged = progress.value) ∧
        ∀ reading, readFront settings bytes = .ok reading → reading.value = progress.value) ∧
      (progress.shift = 0xFFFFFFFF ↔ 613566757 ≤ i)) ∧
    ∀ byte k, 7 * k + 3 < 64 →
      (placedLow (payload byte) ((fun shift => shift + 7)^[613566757 + k] 0)).toNat =
        (byte &&& 0x7F).toNat * 2 ^ (7 * k + 3) % 2 ^ 64 := by
  constructor
  · intro i progress h
    have hread := h.readFront_eq
    obtain ⟨hi, -, rfl⟩ := h.eq_after
    have hlength : (bytes.take i).length = i := List.length_take_of_le hi
    have hshift := Progress.toNat_shift_after (bytes.take i)
    rw [hlength] at hshift
    refine ⟨hread, hi, hlength, hshift, ?_, ?_, ?_, ?_, ?_⟩
    · rw [Progress.toNat_value_after, magnitude_take_eq_sum hi]
    · have hlt := Progress.toNat_value_after_lt (bytes.take i)
      rwa [hlength] at hlt
    · intro byte merged hmerged
      have hadd := Progress.merged?_after_eq_add hmerged
      rwa [hlength, toNat_payload_eq_and] at hadd
    · intro hlate
      have hbeyond : 64 ≤ (Progress.after (bytes.take i)).shift.toNat := by omega
      constructor
      · intro byte merged hmerged
        exact Progress.merged?_of_le hbeyond hmerged
      · intro reading hreading
        rw [hread] at hreading
        exact Progress.value_of_scan hbeyond hreading
    · have hlargest : (0xFFFFFFFF : UInt32).toNat = 2 ^ 32 - 1 := rfl
      rw [← UInt32.toNat_inj, hshift, hlargest]
      omega
  · intro byte k hk
    have hcount : ((fun shift : UInt32 => shift + 7)^[613566757 + k] 0).toNat = 7 * k + 3 := by
      rw [iterate_add_seven, UInt32.toNat_ofNat']
      omega
    rw [toNat_placedLow, hcount, toNat_payload_eq_and]

/-- A value of any length that is wrapped: all bits of all groups are set. -/
theorem reached_ones (n : ℕ) :
    (∃ progress, Progress.Reached ⟨.wrap, none⟩ (List.replicate n 0xFF ++ [0x7F]) n progress) ∧
      ∃ value, readFront ⟨.wrap, none⟩ (List.replicate n 0xFF ++ [0x7F]) = .ok ⟨value, n + 1⟩ := by
  have hpassed : Unfinished ⟨.wrap, none⟩ (List.replicate n 0xFF) := by
    refine ⟨?_, by simp [Settings.Allows], Settings.fits_of_wrap rfl _⟩
    intro byte hbyte
    rw [List.eq_of_mem_replicate hbyte]
    rfl
  have htake : (List.replicate n 0xFF ++ [0x7F] : Bytes).take n = List.replicate n 0xFF :=
    List.take_left' List.length_replicate
  constructor
  · exact ⟨_, Progress.reached_iff.mpr ⟨by simp, by rwa [htake], rfl⟩⟩
  · have hend : Ending ⟨.wrap, none⟩ (List.replicate n 0xFF ++ [0x7F]) _ :=
      .value hpassed (by simp [Settings.Allows]) (Settings.fits_of_wrap rfl _) rfl
    have hread := readFront_of_ending hend
    rw [List.length_replicate] at hread
    exact ⟨_, hread⟩

/-- More than 600 MB of ones, and one more: the first byte for which the count stands still.
What it adds is nothing, where it would be added at bit 3 if the count had started again. -/
theorem state_at_depth_saturated :
    ∃ progress, Progress.Reached ⟨.wrap, none⟩ (List.replicate 613566757 0xFF ++ [0x7F]) 613566757
        progress ∧
      progress.shift = 0xFFFFFFFF ∧
      progress.merged? ⟨.wrap, none⟩ 0x7F = some progress.value ∧
      readFront ⟨.wrap, none⟩ (List.replicate 613566757 0xFF ++ [0x7F]) =
        .ok ⟨progress.value, 613566758⟩ ∧
      (placedLow (payload 0x7F) ((fun shift => shift + 7)^[613566757] 0)).toNat = 0x3F8 := by
  obtain ⟨⟨progress, hreached⟩, value, hread⟩ := reached_ones 613566757
  obtain ⟨hstate, hagain⟩ :=
    state_at_depth ⟨.wrap, none⟩ (List.replicate 613566757 0xFF ++ [0x7F])
  obtain ⟨-, -, -, -, -, -, -, hlate, hstill⟩ := hstate 613566757 progress hreached
  obtain ⟨hmerged, hvalue⟩ := hlate (by decide)
  refine ⟨progress, hreached, hstill.mpr le_rfl, ?_, ?_, hagain 0x7F 0 (by decide)⟩
  · -- nothing is refused, and what is merged is the value
    have hsome : progress.merged? ⟨.wrap, none⟩ 0x7F ≠ none := by
      rw [ne_eq, Progress.merged?_eq_none_iff]
      simp
    obtain ⟨merged, hmerge⟩ := Option.ne_none_iff_exists'.mp hsome
    rw [hmerge, hmerged _ _ hmerge]
  · rw [hread, ← hvalue _ hread]

end Base128

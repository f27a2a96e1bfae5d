import Base128.Proofs.Unfinished

/-! # Merging a group

What one more byte does to the value. The code tells whether bits get lost by moving a group
up and down again, and it merges by joining bits. Here both are told on the integers: room is
a bound, and merging is **addition**.

* `testBit_placedLow` — the bits of a group that have room, one by one.
* `and_placedLow_eq_zero`, `toNat_or_placedLow` — a group that is placed above the value
  shares no bit with it, so what is merged is their sum.
* `Progress.merged?_eq_none_iff` — a byte is refused exactly for a bit that has no room.
* `Progress.merged?_of_le` — from bit 64 on, no byte makes a difference.
* `placed_exactly` — so the test for lost bits is exact, and what is kept of a group that
  fails it are the bits below bit 64.
-/

namespace Base128

/-! ## Bits -/

/-- Words that share no bit are joined by addition. -/
theorem toNat_or_of_and_eq_zero {x y : UInt64} (h : x &&& y = 0) :
    (x ||| y).toNat = x.toNat + y.toNat := by
  have hbits : x.toBitVec &&& y.toBitVec = 0#64 := congrArg UInt64.toBitVec h
  calc (x ||| y).toNat
      = (x.toBitVec ||| y.toBitVec).toNat := rfl
    _ = (x.toBitVec + y.toBitVec).toNat := by rw [BitVec.add_eq_or_of_and_eq_zero _ _ hbits]
    _ = x.toNat + y.toNat := BitVec.toNat_add_of_and_eq_zero hbits

section placedLow

variable {value group : UInt64} {shift : UInt32}

/-- A bit of a group is kept where it has room. -/
theorem testBit_placedLow (group : UInt64) (shift : UInt32) (bit : ℕ) :
    (placedLow group shift).toNat.testBit bit =
      (decide (bit < 64) &&
        (decide (shift.toNat ≤ bit) && group.toNat.testBit (bit - shift.toNat))) := by
  rw [toNat_placedLow, Nat.testBit_mod_two_pow, Nat.testBit_mul_two_pow]

/-- Nothing is kept from bit 64 on. -/
theorem placedLow_of_le (h : 64 ≤ shift.toNat) : placedLow group shift = 0 := by
  rw [placedLow_eq, ofNat_mul_two_pow_of_le h]

/-- A group shares no bit with a value that ends below it. -/
theorem and_placedLow_eq_zero (h : value.toNat < 2 ^ shift.toNat) :
    value &&& placedLow group shift = 0 := by
  apply UInt64.toNat_inj.mp
  rw [UInt64.toNat_and]
  apply Nat.eq_of_testBit_eq
  intro bit
  rw [Nat.testBit_and, testBit_placedLow]
  rcases Nat.lt_or_ge bit shift.toNat with hlt | hge
  · -- below its place the group has no bits
    simp [Nat.not_le.mpr hlt]
  · -- from there on the value has none
    have hclear : value.toNat.testBit bit = false :=
      Nat.testBit_lt_two_pow (lt_of_lt_of_le h (Nat.pow_le_pow_right (by decide) hge))
    simp [hclear]

theorem toNat_or_placedLow (h : value.toNat < 2 ^ shift.toNat) :
    (value ||| placedLow group shift).toNat = value.toNat + (placedLow group shift).toNat :=
  toNat_or_of_and_eq_zero (and_placedLow_eq_zero h)

end placedLow

/-! ## One byte -/

namespace Progress

variable {settings : Settings} {progress : Progress} {byte : UInt8} {merged : UInt64}

/-- What is merged is the part of the group that has room. -/
theorem eq_of_merged? (h : progress.merged? settings byte = some merged) :
    merged = progress.value ||| placedLow (payload byte) progress.shift := by
  rw [merged?_eq] at h
  split_ifs at h
  exact (Option.some.inj h).symm

/-- A byte is refused exactly for a bit that has no room, and only where the settings say
so. -/
theorem merged?_eq_none_iff :
    progress.merged? settings byte = none ↔
      settings.overflow = .reject ∧
        ∃ bit, (payload byte).toNat.testBit bit = true ∧ 64 ≤ progress.shift.toNat + bit := by
  have hfits : ¬ settings.Fits ((payload byte).toNat * 2 ^ progress.shift.toNat) ↔
      settings.overflow = .reject ∧
        ∃ bit, (payload byte).toNat.testBit bit = true ∧ 64 ≤ progress.shift.toNat + bit := by
    simp only [Settings.Fits, mul_two_pow_lt_iff_testBit, not_forall, not_lt, exists_prop]
  rw [merged?_eq, ← hfits]
  simp

/-- From bit 64 on, no byte makes a difference. -/
theorem merged?_of_le (hshift : 64 ≤ progress.shift.toNat)
    (h : progress.merged? settings byte = some merged) : merged = progress.value := by
  rw [eq_of_merged? h, placedLow_of_le hshift, UInt64.or_zero]

end Progress

/-- **Exact placement.** A group is placed without loss exactly where the number that it
stands for at its place is below `2 ^ 64`, and then the word is this number. What is kept of
any group, and so of one that loses bits, is this number modulo `2 ^ 64`. A byte is refused
exactly where large numbers are and one of the bits of its group would lie beyond the word,
so no accepted bit is lost; and a byte that is merged adds to the bits of the value those of
its group that lie below bit 64, each at its place, and no others. -/
theorem placed_exactly :
    (∀ (group : UInt64) (shift : UInt32),
      (∀ bits, placed? group shift = some bits ↔
        group.toNat * 2 ^ shift.toNat < 2 ^ 64 ∧ bits.toNat = group.toNat * 2 ^ shift.toNat) ∧
      (placedLow group shift).toNat = group.toNat * 2 ^ shift.toNat % 2 ^ 64) ∧
    ∀ (settings : Settings) (progress : Progress) (byte : UInt8),
      (progress.merged? settings byte = none ↔
        settings.overflow = .reject ∧
          ∃ bit, (payload byte).toNat.testBit bit = true ∧ 64 ≤ progress.shift.toNat + bit) ∧
      ∀ merged, progress.merged? settings byte = some merged →
        ∀ bit, merged.toNat.testBit bit =
          (progress.value.toNat.testBit bit ||
            (decide (bit < 64) && (decide (progress.shift.toNat ≤ bit) &&
              (payload byte).toNat.testBit (bit - progress.shift.toNat)))) := by
  constructor
  · intro group shift
    exact ⟨fun bits => placed?_eq_some_iff, toNat_placedLow group shift⟩
  · intro settings progress byte
    refine ⟨Progress.merged?_eq_none_iff, ?_⟩
    intro merged hmerged bit
    rw [Progress.eq_of_merged? hmerged, UInt64.toNat_or, Nat.testBit_or, testBit_placedLow]

/-- The tenth group has room for one bit of seven, which is kept where the others may be
lost. -/
theorem placed_exactly_tenth :
    placed? 0x7F 63 = none ∧
      (placedLow 0x7F 63).toNat = 0x7F * 2 ^ 63 % 2 ^ 64 ∧
      (⟨9, 5, 63⟩ : Progress).merged? ⟨.reject, none⟩ 0xFF = none ∧
      (⟨9, 5, 63⟩ : Progress).merged? ⟨.wrap, none⟩ 0xFF = some 0x8000000000000005 ∧
      (0x8000000000000005 : UInt64).toNat.testBit 63 = true := by
  obtain ⟨hplaced, hmerged⟩ := placed_exactly
  have hwrap : (⟨9, 5, 63⟩ : Progress).merged? ⟨.wrap, none⟩ 0xFF = some 0x8000000000000005 := by
    decide
  refine ⟨?_, (hplaced 0x7F 63).2, ?_, hwrap, ?_⟩
  · apply Option.eq_none_iff_forall_ne_some.mpr
    intro bits hbits
    have hroom := (((hplaced 0x7F 63).1 bits).mp hbits).1
    exact absurd hroom (by decide)
  · exact (hmerged _ _ _).1.mpr ⟨rfl, 6, by decide, by decide⟩
  · rw [(hmerged _ _ _).2 _ hwrap 63]
    decide

end Base128

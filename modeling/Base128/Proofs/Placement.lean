import Mathlib.Tactic
import Base128.Group

/-! # Shifts without loss

A group that is moved up by `shift` bits becomes `group * 2 ^ shift`. The word
has room for that number exactly when it is below `2 ^ 64`.

* `placed?_eq` — a group is placed exactly when it has room, and **exactly**
  at its place.
* `placedLow_eq` — dropping the bits without room takes the number modulo
  `2 ^ 64`.
* `mul_two_pow_lt_iff_testBit` — room for a group is room for each of its bits.
* `ofNat_mul_two_pow_of_le`, `mul_two_pow_lt_iff_of_le` — from bit 64 on, all
  places are alike: nothing but a zero group has room there, and nothing is
  left of any group.
-/

namespace Base128

/-! ## Natural numbers -/

/-- Nothing of a number stays below bit 64 once it starts there. -/
theorem ofNat_mul_two_pow_of_le {shift : ℕ} (h : 64 ≤ shift) (group : ℕ) :
    UInt64.ofNat (group * 2 ^ shift) = 0 := by
  have hdvd : 2 ^ 64 ∣ group * 2 ^ shift := Dvd.dvd.mul_left (pow_dvd_pow 2 h) group
  apply UInt64.toNat_inj.mp
  rw [UInt64.toNat_ofNat', Nat.mod_eq_zero_of_dvd hdvd]
  rfl

/-- From bit 64 on, only a zero group has room. -/
theorem mul_two_pow_lt_iff_of_le {shift : ℕ} (h : 64 ≤ shift) (group : ℕ) :
    group * 2 ^ shift < 2 ^ 64 ↔ group = 0 := by
  constructor
  · intro hlt
    by_contra hne
    have hpow : 2 ^ 64 ≤ 2 ^ shift := Nat.pow_le_pow_right (by decide) h
    have hmul : 2 ^ shift ≤ group * 2 ^ shift :=
      Nat.le_mul_of_pos_left _ (Nat.pos_of_ne_zero hne)
    omega
  · rintro rfl
    simp

/-- There is room for a group exactly where there is room for each of its bits. -/
theorem mul_two_pow_lt_iff_testBit {group shift : ℕ} :
    group * 2 ^ shift < 2 ^ 64 ↔ ∀ bit, group.testBit bit = true → shift + bit < 64 := by
  constructor
  · intro hlt bit hset
    by_contra hge
    have hclear : (group * 2 ^ shift).testBit (shift + bit) = false :=
      Nat.testBit_lt_two_pow (lt_of_lt_of_le hlt (Nat.pow_le_pow_right (by decide) (by omega)))
    rw [Nat.testBit_mul_two_pow, Nat.add_sub_cancel_left, hset] at hclear
    simp at hclear
  · intro hroom
    apply Nat.lt_pow_two_of_testBit
    intro place hplace
    rw [Nat.testBit_mul_two_pow]
    by_contra hset
    rw [Bool.not_eq_false, Bool.and_eq_true, decide_eq_true_eq] at hset
    have hbit := hroom (place - shift) hset.2
    omega

/-- A group has room above `low` as soon as it has room alone: what it leaves
free above itself is at least as wide as its own lowest bit. -/
theorem add_mul_two_pow_lt {low group shift : ℕ} (hlow : low < 2 ^ shift) (hlow' : low < 2 ^ 64)
    (h : group * 2 ^ shift < 2 ^ 64) : low + group * 2 ^ shift < 2 ^ 64 := by
  rcases Nat.eq_zero_or_pos group with hzero | hpos
  · simpa [hzero] using hlow'
  · have hshift : shift ≤ 64 := by
      by_contra hgt
      have := (mul_two_pow_lt_iff_of_le (by omega) group).mp h
      omega
    -- `k` bits are free from `shift` on, so `group` has at most that many
    rcases Nat.exists_eq_add_of_le hshift with ⟨k, hk⟩
    have hsplit : 2 ^ 64 = 2 ^ k * 2 ^ shift := by
      rw [hk, Nat.pow_add, Nat.mul_comm]
    rw [hsplit] at h
    have hgroup : group < 2 ^ k := Nat.lt_of_mul_lt_mul_right h
    calc low + group * 2 ^ shift
        < 2 ^ shift + group * 2 ^ shift := by omega
      _ = (group + 1) * 2 ^ shift := by rw [Nat.succ_mul, Nat.add_comm]
      _ ≤ 2 ^ k * 2 ^ shift := Nat.mul_le_mul_right _ hgroup
      _ = 2 ^ 64 := hsplit.symm

/-- Groups that share no bit are merged by addition. -/
theorem ofNat_add_mul_two_pow {low shift : ℕ} (hlow : low < 2 ^ shift) (group : ℕ) :
    UInt64.ofNat (low + group * 2 ^ shift) =
      UInt64.ofNat low ||| UInt64.ofNat (group * 2 ^ shift) := by
  have hor : 2 ^ shift * group + low = 2 ^ shift * group ||| low :=
    Nat.two_pow_add_eq_or_of_lt hlow group
  rw [← UInt64.ofNat_or, Nat.or_comm, Nat.mul_comm group, ← hor, Nat.add_comm]

/-! ## Words -/

/-- The shift that `lifted?` makes is a multiplication modulo `2 ^ 64`. -/
theorem lifted?_of_lt {group : UInt64} {shift : UInt32} (h : shift.toNat < 64) :
    lifted? group shift = some (UInt64.ofNat (group.toNat * 2 ^ shift.toNat)) := by
  have hlt : shift < 64 := UInt32.lt_iff_toNat_lt.mpr h
  rw [lifted?, if_pos hlt]
  congr 1
  apply UInt64.toNat_inj.mp
  rw [UInt64.toNat_shiftLeft, UInt32.toNat_toUInt64, Nat.mod_eq_of_lt h, Nat.shiftLeft_eq,
    UInt64.toNat_ofNat']

theorem lifted?_of_le {group : UInt64} {shift : UInt32} (h : 64 ≤ shift.toNat) :
    lifted? group shift = none := by
  have hnot : ¬ shift < 64 := by
    intro hlt
    have := UInt32.lt_iff_toNat_lt.mp hlt
    simp at this
    omega
  rw [lifted?, if_neg hnot]

/-- Moving back down finds the group again exactly when no bit was lost. -/
theorem shiftRight_ofNat_eq_iff {group : UInt64} {shift : UInt32} (h : shift.toNat < 64) :
    UInt64.ofNat (group.toNat * 2 ^ shift.toNat) >>> shift.toUInt64 = group ↔
      group.toNat * 2 ^ shift.toNat < 2 ^ 64 := by
  have hdown : (UInt64.ofNat (group.toNat * 2 ^ shift.toNat) >>> shift.toUInt64).toNat =
      group.toNat * 2 ^ shift.toNat % 2 ^ 64 / 2 ^ shift.toNat := by
    rw [UInt64.toNat_shiftRight, UInt32.toNat_toUInt64, Nat.mod_eq_of_lt h,
      Nat.shiftRight_eq_div_pow, UInt64.toNat_ofNat']
  have hpos : 0 < 2 ^ shift.toNat := Nat.two_pow_pos _
  rw [← UInt64.toNat_inj, hdown]
  constructor
  · intro hback
    -- otherwise the remainder is smaller, and so is what comes back down
    have hle : group.toNat * 2 ^ shift.toNat ≤ group.toNat * 2 ^ shift.toNat % 2 ^ 64 := by
      rw [← Nat.le_div_iff_mul_le hpos, hback]
    exact lt_of_le_of_lt hle (Nat.mod_lt _ (by decide))
  · intro hlt
    rw [Nat.mod_eq_of_lt hlt, Nat.mul_div_cancel _ hpos]

/-- A group is placed exactly when the word has room for all of it. -/
theorem placed?_eq (group : UInt64) (shift : UInt32) :
    placed? group shift =
      if group.toNat * 2 ^ shift.toNat < 2 ^ 64
      then some (UInt64.ofNat (group.toNat * 2 ^ shift.toNat)) else none := by
  unfold placed?
  split_ifs with hzero hroom hroom
  · simp [hzero]
  · simp [hzero] at hroom
  · -- with room, so `lifted?` is defined and loses no bit
    have hne : group.toNat ≠ 0 := fun h => hzero (UInt64.toNat_inj.mp h)
    have hshift : shift.toNat < 64 := by
      by_contra hge
      exact hne ((mul_two_pow_lt_iff_of_le (by omega) _).mp hroom)
    have hkept := (shiftRight_ofNat_eq_iff hshift).mpr hroom
    simp only [lifted?_of_lt hshift, hkept, if_true]
  · -- without room: bits are lost, or the distance is refused
    by_cases hshift : shift.toNat < 64
    · have hlost := mt (shiftRight_ofNat_eq_iff hshift).mp hroom
      simp only [lifted?_of_lt hshift, hlost, if_false]
    · rw [lifted?_of_le (by omega)]

/-- The bits that have room are the number modulo `2 ^ 64`. -/
theorem placedLow_eq (group : UInt64) (shift : UInt32) :
    placedLow group shift = UInt64.ofNat (group.toNat * 2 ^ shift.toNat) := by
  unfold placedLow
  by_cases hshift : shift.toNat < 64
  · rw [lifted?_of_lt hshift, Option.getD_some]
  · rw [lifted?_of_le (by omega), Option.getD_none, ofNat_mul_two_pow_of_le (by omega)]

theorem toNat_placedLow (group : UInt64) (shift : UInt32) :
    (placedLow group shift).toNat = group.toNat * 2 ^ shift.toNat % 2 ^ 64 := by
  rw [placedLow_eq, UInt64.toNat_ofNat']

theorem placed?_eq_some_iff {group bits : UInt64} {shift : UInt32} :
    placed? group shift = some bits ↔
      group.toNat * 2 ^ shift.toNat < 2 ^ 64 ∧ bits.toNat = group.toNat * 2 ^ shift.toNat := by
  rw [placed?_eq]
  by_cases hroom : group.toNat * 2 ^ shift.toNat < 2 ^ 64
  · rw [if_pos hroom, Option.some_inj, ← UInt64.toNat_inj, UInt64.toNat_ofNat',
      Nat.mod_eq_of_lt hroom, and_iff_right hroom, eq_comm]
  · rw [if_neg hroom, iff_false_left (by simp)]
    exact fun h => hroom h.1

end Base128

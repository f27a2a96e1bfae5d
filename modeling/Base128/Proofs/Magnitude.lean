import Mathlib.Algebra.BigOperators.Fin
import Mathlib.Data.Nat.Digits.Lemmas
import Base128.Byte

/-! # The number that a byte string writes

The groups of a byte string, read as digits in base 128 with the lowest first,
write a natural number of any size. Everything that the decoder says about a
value is measured against this number.

* `magnitude` — the number, whatever the top bits of the bytes say.
* `magnitude_eq_sum` — the group at index `i` counts `2 ^ (7 * i)` times.
* `magnitude_concat` — one more byte adds its group at the next free place.
* `magnitude_lt` — so the number stays below that place, and the next group
  shares **no bit** with it.
-/

namespace Base128

/-! ## Single bytes -/

theorem toNat_payload_eq_and (byte : UInt8) : (payload byte).toNat = (byte &&& 0x7F).toNat := by
  rw [payload, UInt8.toNat_toUInt64]

/-- The group of a byte is what is left of it without the top bit. -/
theorem toNat_payload (byte : UInt8) : (payload byte).toNat = byte.toNat % 128 := by
  have hmask : (0x7F : UInt8).toNat = 2 ^ 7 - 1 := rfl
  rw [toNat_payload_eq_and, UInt8.toNat_and, hmask, Nat.and_two_pow_sub_one_eq_mod]

theorem toNat_payload_lt (byte : UInt8) : (payload byte).toNat < 128 := by
  rw [toNat_payload]
  exact Nat.mod_lt _ (by decide)

/-- The decoder's question about the top bit, as an equation. -/
theorem isLast_iff {byte : UInt8} : isLast byte = true ↔ byte &&& 0x80 = 0 := by
  simp [isLast]

/-! ## Byte strings -/

/-- The groups of the bytes as one number, the lowest group first. -/
def magnitude (bytes : Bytes) : ℕ :=
  Nat.ofDigits 128 (bytes.map fun byte => (payload byte).toNat)

@[simp] theorem magnitude_nil : magnitude [] = 0 := rfl

theorem magnitude_cons (byte : UInt8) (bytes : Bytes) :
    magnitude (byte :: bytes) = (payload byte).toNat + 128 * magnitude bytes := by
  simp [magnitude, Nat.ofDigits_cons]

/-- The group of one more byte lands above all groups before it. -/
theorem magnitude_concat (bytes : Bytes) (byte : UInt8) :
    magnitude (bytes ++ [byte]) =
      magnitude bytes + (payload byte).toNat * 2 ^ (7 * bytes.length) := by
  have hpow : 128 ^ bytes.length = 2 ^ (7 * bytes.length) := by
    rw [Nat.pow_mul]
  simp [magnitude, Nat.ofDigits_append, hpow, Nat.mul_comm]

/-- Below the place of the next group there is room for all groups so far. -/
theorem magnitude_lt (bytes : Bytes) : magnitude bytes < 2 ^ (7 * bytes.length) := by
  have hlt : magnitude bytes < 128 ^ (bytes.map fun byte => (payload byte).toNat).length := by
    apply Nat.ofDigits_lt_base_pow_length (by decide)
    intro digit hdigit
    obtain ⟨byte, -, rfl⟩ := List.mem_map.mp hdigit
    exact toNat_payload_lt byte
  rw [List.length_map] at hlt
  rw [Nat.pow_mul]
  exact hlt

/-- More bytes never make the number smaller. -/
theorem magnitude_le_append (front back : Bytes) :
    magnitude front ≤ magnitude (front ++ back) := by
  unfold magnitude
  rw [List.map_append, Nat.ofDigits_append]
  exact Nat.le_add_right _ _

/-- The number as a sum over the bytes. -/
theorem magnitude_eq_sum (bytes : Bytes) :
    magnitude bytes = ∑ i : Fin bytes.length, (bytes.get i &&& 0x7F).toNat * 2 ^ (7 * i.val) := by
  induction bytes with
  | nil => simp
  | cons byte rest ih =>
    have hplace (i : ℕ) : 2 ^ (7 * (i + 1)) = 128 * 2 ^ (7 * i) := by
      rw [Nat.mul_succ, Nat.pow_add, Nat.mul_comm]
    rw [magnitude_cons, ih, toNat_payload_eq_and, Finset.mul_sum]
    simp only [List.length_cons, Fin.sum_univ_succ, Fin.val_zero, Fin.val_succ, List.get_cons_zero,
      List.get_cons_succ', hplace]
    simp only [Nat.mul_zero, Nat.pow_zero, Nat.mul_one]
    -- the heads agree, and every later group moves up by one place
    congr 1
    apply Finset.sum_congr rfl
    intro i _
    rw [Nat.mul_left_comm]

end Base128

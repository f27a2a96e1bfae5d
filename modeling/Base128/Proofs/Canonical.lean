import Mathlib.Algebra.Order.Floor.Div
import Mathlib.Data.List.ModifyLast
import Mathlib.Data.Nat.Size
import Base128.Proofs.Acceptance

/-! # Canonical encodings

Every value has one shortest encoding, and all of its other encodings are this
one with zero groups behind it.

* `shortest` — the encoding of a number that stops at its highest group.
* `padded` — an encoding with more groups behind it, all of them zero.
* `terminated_magnitude_iff` — an encoding of a number is its shortest one,
  **or that one padded**, and nothing else.
* `length_shortest` — seven bits a byte, and never less than one byte.
* `shortest_canonical` — what this means to the decoder: there is one unpadded
  encoding that it takes for a value, and padding never changes the value.
-/

namespace Base128

/-! ## Single bytes -/

/-- A property of bytes that holds of all 256. -/
theorem forall_byte {p : UInt8 → Prop} (h : ∀ n : Fin 256, p (UInt8.ofFin n)) (byte : UInt8) :
    p byte := by
  have hbyte := h byte.toFin
  rwa [UInt8.ofFin_toFin] at hbyte

theorem isLast_iff_lt (byte : UInt8) : isLast byte = true ↔ byte.toNat < 128 := by
  revert byte
  apply forall_byte
  decide +kernel

/-- With its top bit set, a byte carries the same group. -/
theorem toNat_or_top (byte : UInt8) : (byte ||| 0x80).toNat = byte.toNat % 128 + 128 := by
  revert byte
  apply forall_byte
  decide +kernel

theorem isLast_or_top (byte : UInt8) : isLast (byte ||| 0x80) = false := by
  rw [Bool.eq_false_iff, ne_eq, isLast_iff_lt, toNat_or_top]
  omega

theorem payload_or_top (byte : UInt8) :
    (payload (byte ||| 0x80)).toNat = (payload byte).toNat := by
  rw [toNat_payload, toNat_payload, toNat_or_top]
  omega

/-- A byte is its group, with the top bit set if it is not the last one. -/
theorem eq_of_isLast {byte : UInt8} (h : isLast byte = true) :
    byte = UInt8.ofNat (payload byte).toNat := by
  have hlt := (isLast_iff_lt byte).mp h
  rw [toNat_payload, Nat.mod_eq_of_lt hlt, UInt8.ofNat_toNat]

theorem toNat_of_not_isLast {byte : UInt8} (h : isLast byte = false) :
    byte.toNat = (payload byte).toNat + 128 := by
  have hge : ¬ byte.toNat < 128 := by
    rw [← isLast_iff_lt, h]
    simp
  have hlt := byte.toNat_lt
  rw [toNat_payload]
  omega

theorem eq_of_not_isLast {byte : UInt8} (h : isLast byte = false) :
    byte = UInt8.ofNat ((payload byte).toNat + 128) := by
  rw [← toNat_of_not_isLast h, UInt8.ofNat_toNat]

theorem eq_or_top_of_not_isLast {byte : UInt8} (h : isLast byte = false) :
    byte = UInt8.ofNat (payload byte).toNat ||| 0x80 := by
  have hgroup := toNat_payload_lt byte
  rw [← UInt8.toNat_inj, toNat_or_top, UInt8.toNat_ofNat', toNat_of_not_isLast h]
  omega

/-! ## Encodings from the front -/

/-- An encoding is its last byte, or a byte that continues and an encoding. -/
theorem terminated_cons_iff {byte : UInt8} {rest : Bytes} :
    Terminated (byte :: rest) ↔
      (rest = [] ∧ isLast byte = true) ∨ (isLast byte = false ∧ Terminated rest) := by
  constructor
  · rintro ⟨front, last, hbytes, hfront, hlast⟩
    cases front with
    | nil =>
      obtain ⟨rfl, rfl⟩ := List.cons.inj hbytes
      exact Or.inl ⟨rfl, hlast⟩
    | cons head front =>
      obtain ⟨rfl, rfl⟩ := List.cons.inj hbytes
      refine Or.inr ⟨hfront byte (by simp), front, last, rfl, ?_, hlast⟩
      intro b hb
      exact hfront b (List.mem_cons_of_mem byte hb)
  · rintro (⟨rfl, hlast⟩ | ⟨hmore, front, last, rfl, hfront, hlast⟩)
    · exact ⟨[], byte, rfl, by simp, hlast⟩
    · refine ⟨byte :: front, last, rfl, ?_, hlast⟩
      intro b hb
      rcases List.mem_cons.mp hb with rfl | hinside
      · exact hmore
      · exact hfront b hinside

theorem not_terminated_nil : ¬ Terminated [] := by
  rintro ⟨front, last, hbytes, -⟩
  simp at hbytes

/-- Encodings are built up from the last byte to the front. -/
theorem terminated_induction {motive : (bytes : Bytes) → Terminated bytes → Prop}
    (last : ∀ byte (hlast : isLast byte = true),
      motive [byte] (terminated_cons_iff.mpr (Or.inl ⟨rfl, hlast⟩)))
    (more : ∀ byte rest (hmore : isLast byte = false) (hrest : Terminated rest),
      motive rest hrest →
        motive (byte :: rest) (terminated_cons_iff.mpr (Or.inr ⟨hmore, hrest⟩)))
    (bytes : Bytes) (h : Terminated bytes) : motive bytes h := by
  induction bytes with
  | nil => exact absurd h not_terminated_nil
  | cons byte rest ih =>
    rcases terminated_cons_iff.mp h with ⟨rfl, hlast⟩ | ⟨hmore, hrest⟩
    · exact last byte hlast
    · exact more byte rest hmore hrest (ih hrest)

/-! ## The shortest encoding -/

/-- The encoding of a number in as few bytes as there are. -/
def shortest (n : ℕ) : Bytes :=
  if n < 128 then [UInt8.ofNat n] else UInt8.ofNat (n % 128 + 128) :: shortest (n / 128)
termination_by n
decreasing_by omega

theorem shortest_of_lt {n : ℕ} (h : n < 128) : shortest n = [UInt8.ofNat n] := by
  rw [shortest, if_pos h]

theorem shortest_of_le {n : ℕ} (h : 128 ≤ n) :
    shortest n = UInt8.ofNat (n % 128 + 128) :: shortest (n / 128) := by
  rw [shortest, if_neg (Nat.not_lt.mpr h)]

theorem shortest_ne_nil (n : ℕ) : shortest n ≠ [] := by
  rcases Nat.lt_or_ge n 128 with hlt | hge
  · rw [shortest_of_lt hlt]
    simp
  · rw [shortest_of_le hge]
    simp

/-- A group in front of an encoding makes the number that it starts. -/
theorem shortest_add_mul {group n : ℕ} (hgroup : group < 128) (hn : 0 < n) :
    shortest (group + 128 * n) = UInt8.ofNat (group + 128) :: shortest n := by
  have hmod : (group + 128 * n) % 128 = group := by omega
  have hdiv : (group + 128 * n) / 128 = n := by omega
  rw [shortest_of_le (by omega), hmod, hdiv]

/-- Numbers are built up group by group, from the highest to the lowest. -/
theorem group_induction {motive : ℕ → Prop} (single : ∀ group < 128, motive group)
    (more : ∀ group < 128, ∀ n, 0 < n → motive n → motive (group + 128 * n)) (n : ℕ) :
    motive n := by
  induction n using Nat.strongRecOn with
  | ind n ih =>
    rcases Nat.lt_or_ge n 128 with hlt | hge
    · exact single n hlt
    · have hsplit : n % 128 + 128 * (n / 128) = n := by omega
      have hn := more (n % 128) (by omega) (n / 128) (by omega) (ih (n / 128) (by omega))
      rwa [hsplit] at hn

/-- A group below a number adds seven bits to it. -/
theorem size_add_mul {group n : ℕ} (hgroup : group < 128) (hn : 0 < n) :
    (group + 128 * n).size = n.size + 7 := by
  apply le_antisymm
  · have hlt : n < 2 ^ n.size := Nat.lt_size_self n
    rw [Nat.size_le, Nat.pow_add]
    omega
  · -- the highest bit of `n` is seven places further up
    obtain ⟨top, htop⟩ : ∃ top, n.size = top + 1 :=
      Nat.exists_eq_succ_of_ne_zero (Nat.size_pos.mpr hn).ne'
    have hle : 2 ^ top ≤ n := Nat.lt_size.mp (by omega)
    have hmoved : top + 7 < (group + 128 * n).size := by
      rw [Nat.lt_size, Nat.pow_add]
      omega
    omega

/-- The shortest encoding takes seven bits a byte, and at least one byte. -/
theorem length_shortest (n : ℕ) : (shortest n).length = max 1 (n.size ⌈/⌉ 7) := by
  simp only [Nat.ceilDiv_eq_add_pred_div]
  induction n using group_induction with
  | single group hgroup =>
    have hsize : group.size ≤ 7 := Nat.size_le.mpr hgroup
    rw [shortest_of_lt hgroup, List.length_singleton]
    omega
  | more group hgroup n hn ih =>
    have hpos : 0 < n.size := Nat.size_pos.mpr hn
    rw [shortest_add_mul hgroup hn, List.length_cons, ih, size_add_mul hgroup hn]
    omega

/-- The shortest encoding of a number is an encoding of it. -/
theorem shortest_spec (n : ℕ) : Terminated (shortest n) ∧ magnitude (shortest n) = n := by
  induction n using group_induction with
  | single group hgroup =>
    have hbyte : (UInt8.ofNat group).toNat = group :=
      UInt8.toNat_ofNat_of_lt' (hgroup.trans (by decide))
    rw [shortest_of_lt hgroup, terminated_cons_iff, isLast_iff_lt, magnitude_cons, magnitude_nil,
      toNat_payload, hbyte]
    exact ⟨Or.inl ⟨rfl, hgroup⟩, by omega⟩
  | more group hgroup n hn ih =>
    have hbyte : (UInt8.ofNat (group + 128)).toNat = group + 128 :=
      UInt8.toNat_ofNat_of_lt' (Nat.add_lt_add_right hgroup 128)
    have hmore : isLast (UInt8.ofNat (group + 128)) = false := by
      rw [Bool.eq_false_iff, ne_eq, isLast_iff_lt, hbyte]
      omega
    rw [shortest_add_mul hgroup hn, terminated_cons_iff, magnitude_cons, toNat_payload, hbyte,
      ih.2]
    exact ⟨Or.inr ⟨hmore, ih.1⟩, by omega⟩

/-! ## Padding -/

/-- Zero groups, the last of which ends the number. -/
def zeros (count : ℕ) : Bytes := List.replicate count 0x80 ++ [0x00]

/-- The encoding with more groups behind it, all of them zero: its last byte now
continues, and `count` more bytes do, before the one that ends the number. -/
def padded (bytes : Bytes) (count : ℕ) : Bytes :=
  bytes.modifyLast (· ||| 0x80) ++ zeros count

theorem padded_singleton (byte : UInt8) (count : ℕ) :
    padded [byte] count = (byte ||| 0x80) :: zeros count := by
  have hlast := List.modifyLast_concat (· ||| (0x80 : UInt8)) byte []
  rw [List.nil_append] at hlast
  rw [padded, hlast]
  rfl

theorem padded_cons (byte : UInt8) {bytes : Bytes} (hne : bytes ≠ []) (count : ℕ) :
    padded (byte :: bytes) count = byte :: padded bytes count := by
  have hlast := List.modifyLast_append_of_right_ne_nil (· ||| (0x80 : UInt8)) [byte] bytes hne
  rw [List.singleton_append] at hlast
  rw [padded, hlast]
  rfl

theorem zeros_succ (count : ℕ) : zeros (count + 1) = 0x80 :: zeros count := by
  rw [zeros, List.replicate_succ, List.cons_append, zeros]

theorem terminated_zeros (count : ℕ) : Terminated (zeros count) := by
  refine ⟨List.replicate count 0x80, 0x00, rfl, ?_, rfl⟩
  intro byte hbyte
  rw [List.eq_of_mem_replicate hbyte]
  rfl

theorem magnitude_zeros (count : ℕ) : magnitude (zeros count) = 0 := by
  induction count with
  | zero => rfl
  | succ count ih =>
    rw [zeros_succ, magnitude_cons, ih]
    rfl

/-- Padding leaves an encoding of the same number. -/
theorem padded_spec {bytes : Bytes} (h : Terminated bytes) (count : ℕ) :
    Terminated (padded bytes count) ∧ magnitude (padded bytes count) = magnitude bytes := by
  induction bytes, h using terminated_induction with
  | last byte hlast =>
    rw [padded_singleton, terminated_cons_iff, magnitude_cons, magnitude_cons, payload_or_top,
      magnitude_zeros]
    exact ⟨Or.inr ⟨isLast_or_top byte, terminated_zeros count⟩, rfl⟩
  | more byte rest hmore hrest ih =>
    have hne : rest ≠ [] := by
      rintro rfl
      exact not_terminated_nil hrest
    rw [padded_cons byte hne, terminated_cons_iff, magnitude_cons, magnitude_cons, ih.2]
    exact ⟨Or.inr ⟨hmore, ih.1⟩, rfl⟩

/-- **All encodings of a number.** They are the shortest one, and that one
padded. -/
theorem terminated_magnitude_iff {bytes : Bytes} {n : ℕ} :
    Terminated bytes ∧ magnitude bytes = n ↔
      bytes = shortest n ∨ ∃ count, bytes = padded (shortest n) count := by
  constructor
  · rintro ⟨hterminated, rfl⟩
    induction bytes, hterminated using terminated_induction with
    | last byte hlast =>
      left
      have hgroup := toNat_payload_lt byte
      rw [magnitude_cons, magnitude_nil, Nat.mul_zero, Nat.add_zero, shortest_of_lt hgroup,
        ← eq_of_isLast hlast]
    | more byte rest hmore hrest ih =>
      have hgroup := toNat_payload_lt byte
      rcases Nat.eq_zero_or_pos (magnitude rest) with hzero | hpos
      · -- nothing but zero groups follows, so `byte` is the last byte before padding
        right
        obtain ⟨count, rfl⟩ : ∃ count, rest = zeros count := by
          rw [hzero, shortest_of_lt (by decide)] at ih
          rcases ih with hrest | ⟨count, hrest⟩
          · exact ⟨0, hrest⟩
          · rw [padded_singleton] at hrest
            exact ⟨count + 1, hrest.trans (zeros_succ count).symm⟩
        refine ⟨count, ?_⟩
        rw [magnitude_cons, hzero, Nat.mul_zero, Nat.add_zero, shortest_of_lt hgroup,
          padded_singleton, ← eq_or_top_of_not_isLast hmore]
      · -- the number goes on, and `byte` stands before all that is said of the rest
        rw [magnitude_cons, shortest_add_mul hgroup hpos, ← eq_of_not_isLast hmore]
        rcases ih with hrest | ⟨count, hrest⟩
        · left
          rw [← hrest]
        · right
          refine ⟨count, ?_⟩
          rw [padded_cons byte (shortest_ne_nil _), ← hrest]
  · rintro (rfl | ⟨count, rfl⟩)
    · exact shortest_spec n
    · rcases shortest_spec n with ⟨hshortest, hn⟩
      rcases padded_spec hshortest count with ⟨hterminated, hmagnitude⟩
      exact ⟨hterminated, hmagnitude.trans hn⟩

/-! ## What the decoder takes -/

/-- No zero group stands at the end, unless it is the only one. -/
def Unpadded (bytes : Bytes) : Prop := bytes.length = 1 ∨ bytes.getLast? ≠ some 0x00

theorem getLast?_shortest_ne {n : ℕ} (hn : 0 < n) : (shortest n).getLast? ≠ some 0x00 := by
  induction n using group_induction with
  | single group hgroup =>
    rw [shortest_of_lt hgroup, List.getLast?_singleton]
    intro hzero
    have hbyte := congrArg UInt8.toNat (Option.some.inj hzero)
    rw [UInt8.toNat_ofNat_of_lt' (hgroup.trans (by decide))] at hbyte
    exact hn.ne' hbyte
  | more group hgroup n hpos ih =>
    rw [shortest_add_mul hgroup hpos, List.getLast?_cons_of_ne_nil (shortest_ne_nil n)]
    exact ih hpos

theorem unpadded_shortest (n : ℕ) : Unpadded (shortest n) := by
  rcases Nat.eq_zero_or_pos n with hzero | hpos
  · left
    rw [hzero, shortest_of_lt (by decide), List.length_singleton]
  · exact Or.inr (getLast?_shortest_ne hpos)

theorem not_unpadded_padded {bytes : Bytes} (h : Terminated bytes) (count : ℕ) :
    ¬ Unpadded (padded bytes count) := by
  obtain ⟨front, last, rfl, -⟩ := h
  rw [padded, zeros, List.modifyLast_concat]
  rintro (hone | hlast)
  · -- both the former last byte and the new one count
    simp only [List.length_append, List.length_singleton] at hone
    omega
  · rw [← List.append_assoc, List.getLast?_concat] at hlast
    exact hlast rfl

/-- By default a value is decoded from all encodings of its number. -/
theorem decode_default_eq_ok_iff {bytes rest : Bytes} {value : UInt64} :
    decode {} bytes = .ok (value, rest) ↔
      ∃ front, bytes = front ++ rest ∧ Terminated front ∧ magnitude front = value.toNat := by
  have hencodes (front : Bytes) :
      Encodes {} front value ↔ Terminated front ∧ magnitude front = value.toNat := by
    rw [encodes_iff]
    constructor
    · rintro ⟨hterminated, -, hreject, -⟩
      exact ⟨hterminated, (hreject rfl).2.symm⟩
    · rintro ⟨hterminated, hmagnitude⟩
      refine ⟨hterminated, by simp [Settings.Allows], ?_, by simp⟩
      intro _
      rw [hmagnitude]
      exact ⟨value.toNat_lt, rfl⟩
  simp only [decode_eq_ok_iff, hencodes]

/-- **Canonical encodings.** A value has one encoding without zero groups at its
end that the decoder takes for it, whatever follows. It has seven bits a byte,
so never more than ten bytes. All that the decoder takes for the value is this
encoding, or this encoding padded with zero groups, in any number. -/
theorem shortest_canonical (value : UInt64) :
    (∀ p : Bytes,
      (Terminated p ∧ Unpadded p ∧ ∀ t, decode {} (p ++ t) = .ok (value, t)) ↔
        p = shortest value.toNat) ∧
    (shortest value.toNat).length = max 1 (value.toNat.size ⌈/⌉ 7) ∧
    (shortest value.toNat).length ≤ 10 ∧
    (∀ q : Bytes, decode {} q = .ok (value, []) ↔
      q = shortest value.toNat ∨ ∃ count, q = padded (shortest value.toNat) count) := by
  have hdecode (q : Bytes) : decode {} q = .ok (value, []) ↔
      q = shortest value.toNat ∨ ∃ count, q = padded (shortest value.toNat) count := by
    rw [decode_default_eq_ok_iff, ← terminated_magnitude_iff]
    simp
  refine ⟨?_, length_shortest _, ?_, hdecode⟩
  · intro p
    constructor
    · rintro ⟨-, hunpadded, hall⟩
      have hp := hall []
      rw [List.append_nil, hdecode] at hp
      rcases hp with hp | ⟨count, rfl⟩
      · exact hp
      · exact absurd hunpadded (not_unpadded_padded (shortest_spec _).1 count)
    · rintro rfl
      refine ⟨(shortest_spec _).1, unpadded_shortest _, ?_⟩
      intro t
      rw [decode_default_eq_ok_iff]
      exact ⟨_, rfl, shortest_spec _⟩
  · have hsize : value.toNat.size ≤ 64 := Nat.size_le.mpr value.toNat_lt
    rw [length_shortest, Nat.ceilDiv_eq_add_pred_div]
    omega

end Base128

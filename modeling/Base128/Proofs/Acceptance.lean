import Base128.Proofs.Ending

/-! # What the decoder accepts

The encodings that the decoder accepts, told byte by byte and as a sum over
the integers, with no mention of words, shifts or states.

* `terminated_iff` — where the top bits of an encoding are set.
* `Terminated.length_le` — an encoding stops at the **first** byte with its top
  bit clear, so it is the shortest part from the front that ends in one.
* `decode_accepts_exactly` — the value is the sum of the groups at their
  places, and the encoding may be of any length.
-/

namespace Base128

/-! ## Top bits -/

/-- The top bit of a byte is clear exactly in the last place. -/
theorem terminated_iff {bytes : Bytes} :
    Terminated bytes ↔
      bytes ≠ [] ∧ ∀ i : Fin bytes.length, bytes.get i &&& 0x80 = 0 ↔ i.val + 1 = bytes.length := by
  constructor
  · rintro ⟨front, last, rfl, hfront, hlast⟩
    have hlength : (front ++ [last]).length = front.length + 1 := by simp
    refine ⟨by simp, ?_⟩
    rintro ⟨i, hi⟩
    rw [← isLast_iff]
    show isLast (front ++ [last])[i] = true ↔ i + 1 = (front ++ [last]).length
    rcases Nat.lt_or_ge i front.length with hlt | hge
    · -- a byte that was passed: both sides are wrong
      rw [List.getElem_append_left hlt, hfront _ (List.getElem_mem hlt)]
      constructor
      · intro h
        simp at h
      · intro h
        omega
    · -- the last byte: both sides are right
      have hlastIndex : i = front.length := by omega
      subst hlastIndex
      simp [hlast]
  · -- the last byte is split off, and each part asks `htop` at its places
    rintro ⟨hne, htop⟩
    have hlen : 0 < bytes.length := List.length_pos_of_ne_nil hne
    refine ⟨bytes.dropLast, bytes.getLast hne, (List.dropLast_append_getLast hne).symm, ?_, ?_⟩
    · intro byte hbyte
      obtain ⟨i, hi, rfl⟩ := List.getElem_of_mem hbyte
      rw [List.length_dropLast] at hi
      have hset := mt (htop ⟨i, by omega⟩).mp (by simp; omega)
      rw [List.getElem_dropLast, Bool.eq_false_iff, ne_eq, isLast_iff]
      exact hset
    · have hclear := (htop ⟨bytes.length - 1, by omega⟩).mpr (by simp; omega)
      rw [List.getLast_eq_getElem, isLast_iff]
      exact hclear

/-- No byte before the last one of an encoding could have ended it. -/
theorem Terminated.length_le {bytes rest front : Bytes} {byte : UInt8} (h : Terminated bytes)
    (hpart : front ++ [byte] <+: bytes ++ rest) (hlast : isLast byte = true) :
    bytes.length ≤ front.length + 1 := by
  obtain ⟨passed, last, rfl, hpassed, -⟩ := h
  by_contra hlt
  -- then `byte` is one of the bytes that were passed
  have hget := List.prefix_iff_getElem?.mp hpart front.length (by simp)
  rw [List.getElem_concat_length rfl] at hget
  rw [List.length_append, List.length_singleton] at hlt
  have hinside : front.length < passed.length := by omega
  rw [List.append_assoc, List.getElem?_append_left hinside] at hget
  have hmore := hpassed byte (List.mem_of_getElem? hget)
  simp [hlast] at hmore

/-! ## Values -/

/-- An encoding writes its value as a sum of groups: exactly where numbers of
more than 64 bits are refused, and modulo `2 ^ 64` where they are wrapped. -/
theorem encodes_iff {settings : Settings} {bytes : Bytes} {value : UInt64} :
    Encodes settings bytes value ↔
      Terminated bytes ∧ settings.Allows bytes.length ∧
        (settings.overflow = .reject →
          magnitude bytes < 2 ^ 64 ∧ value.toNat = magnitude bytes) ∧
        (settings.overflow = .wrap → value.toNat = magnitude bytes % 2 ^ 64) := by
  have hword : value = UInt64.ofNat (magnitude bytes) ↔
      value.toNat = magnitude bytes % 2 ^ 64 := by
    rw [← UInt64.toNat_inj, UInt64.toNat_ofNat']
  constructor
  · rintro ⟨hterminated, hallows, hfits, hvalue⟩
    refine ⟨hterminated, hallows, ?_, fun _ => hword.mp hvalue⟩
    intro hreject
    have hlt := hfits hreject
    -- a number that is not refused is its own remainder
    rw [hword, Nat.mod_eq_of_lt hlt] at hvalue
    exact ⟨hlt, hvalue⟩
  · rintro ⟨hterminated, hallows, hreject, hwrap⟩
    refine ⟨hterminated, hallows, fun h => (hreject h).1, hword.mpr ?_⟩
    cases hoverflow : settings.overflow with
    | reject =>
      obtain ⟨hlt, hvalue⟩ := hreject hoverflow
      rw [hvalue, Nat.mod_eq_of_lt hlt]
    | wrap => exact hwrap hoverflow

/-- **Exact acceptance.** A byte string decodes to `value` with `rest` left
over exactly when `rest` follows an encoding `p` within the limit, whose
groups add up to `value`: over the integers and below `2 ^ 64` where larger
numbers are refused, modulo `2 ^ 64` where they are wrapped. This `p` is the
shortest part from the front that ends in a byte with its top bit clear, and
what follows it has no influence on the value. -/
theorem decode_accepts_exactly (settings : Settings) (bytes : Bytes) :
    (∀ value rest, decode settings bytes = .ok (value, rest) ↔
      ∃ (p : Bytes) (s : ℕ), bytes = p ++ rest ∧ p ≠ [] ∧
        (∀ i : Fin p.length, p.get i &&& 0x80 = 0 ↔ i.val + 1 = p.length) ∧
        (∀ limit, settings.maxLength = some limit → p.length ≤ limit) ∧
        s = ∑ i : Fin p.length, (p.get i &&& 0x7F).toNat * 2 ^ (7 * i.val) ∧
        (settings.overflow = .reject → s < 2 ^ 64 ∧ value.toNat = s) ∧
        (settings.overflow = .wrap → value.toNat = s % 2 ^ 64)) ∧
    (∀ value rest, decode settings bytes = .ok (value, rest) →
      ∃ p : Bytes, bytes = p ++ rest ∧
        (∀ q byte, q ++ [byte] <+: bytes → byte &&& 0x80 = 0 → p.length ≤ q.length + 1) ∧
        ∀ more, decode settings (p ++ more) = .ok (value, more)) := by
  constructor
  · intro value rest
    rw [decode_eq_ok_iff]
    constructor
    · rintro ⟨p, hbytes, hencodes⟩
      obtain ⟨hterminated, hallows, hvalue⟩ := encodes_iff.mp hencodes
      obtain ⟨hne, htop⟩ := terminated_iff.mp hterminated
      exact ⟨p, magnitude p, hbytes, hne, htop, hallows, magnitude_eq_sum p, hvalue⟩
    · rintro ⟨p, s, hbytes, hne, htop, hallows, hsum, hvalue⟩
      rw [← magnitude_eq_sum] at hsum
      subst hsum
      exact ⟨p, hbytes, encodes_iff.mpr ⟨terminated_iff.mpr ⟨hne, htop⟩, hallows, hvalue⟩⟩
  · intro value rest h
    obtain ⟨p, rfl, hencodes⟩ := decode_eq_ok_iff.mp h
    refine ⟨p, rfl, ?_, fun more => decode_eq_ok_iff.mpr ⟨p, rfl, hencodes⟩⟩
    intro q byte hpart hclear
    exact hencodes.terminated.length_le hpart (isLast_iff.mpr hclear)

/-- One, padded with zero groups far beyond bit 63, under a limit that the
encoding just keeps. -/
theorem decode_accepts_exactly_padded :
    decode ⟨.reject, some 12⟩ (0x81 :: List.replicate 10 0x80 ++ [0x00, 0xFF]) =
        .ok (1, [0xFF]) ∧
      ∃ p : Bytes, (0x81 :: List.replicate 10 0x80 ++ [0x00, 0xFF] : Bytes) = p ++ [0xFF] ∧
        (∀ q byte, q ++ [byte] <+: (0x81 :: List.replicate 10 0x80 ++ [0x00, 0xFF] : Bytes) →
          byte &&& 0x80 = 0 → p.length ≤ q.length + 1) ∧
        ∀ more, decode ⟨.reject, some 12⟩ (p ++ more) = .ok (1, more) := by
  have h : decode ⟨.reject, some 12⟩ (0x81 :: List.replicate 10 0x80 ++ [0x00, 0xFF]) =
      .ok (1, [0xFF]) := by
    decide +kernel
  exact ⟨h, (decode_accepts_exactly _ _).2 _ _ h⟩

end Base128

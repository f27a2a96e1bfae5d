import Base128.Proofs.Extension

/-! # A limit is a cut

A limit on the length can be kept in two ways. The decoder asks at every byte whether the
limit is used up. Or the bytes beyond the limit are cut off, and nobody asks any more. The
two answer alike but for one case: where it is the cut that ends the bytes too early,
they are **too long**, and not incomplete.

* `Ending.limited` — bytes that keep the limit are read in the same way with and
  without it.
* `readFront_limited_of_decided` — what is decided before the cut stays decided.
* `readFront_limited_of_unfinished` — where nothing is decided before the cut, all
  that matters is whether it cuts anything off.
* `readFront_limited_eq_ok_iff` — a value that uses up the limit **is still a value**.
* `limit_cuts` — so nothing is looked at beyond the limit, but that it is there.
-/

namespace Base128

variable {overflow : Overflow} {limit : ℕ} {bytes : Bytes}

/-! ## Bytes that keep the limit -/

/-- A limit allows the lengths up to itself. -/
theorem allows_some_iff {length : ℕ} :
    (⟨overflow, some limit⟩ : Settings).Allows length ↔ length ≤ limit := by
  simp [Settings.Allows]

theorem Unfinished.limited (h : Unfinished ⟨overflow, none⟩ bytes) (hle : bytes.length ≤ limit) :
    Unfinished ⟨overflow, some limit⟩ bytes where
  continues := h.continues
  allowed := allows_some_iff.mpr hle
  fits := h.fits

/-- Where no more bytes are than the limit allows, it decides nothing. -/
theorem Ending.limited {result : Except Fault Reading}
    (h : Ending ⟨overflow, none⟩ bytes result) (hle : bytes.length ≤ limit) :
    Ending ⟨overflow, some limit⟩ bytes result := by
  cases h with
  | incomplete passed => exact .incomplete (passed.limited hle)
  | tooLong passed nolimit => simp at nolimit
  | overflow passed allowed refused =>
    rw [List.length_append, List.length_cons] at hle
    exact .overflow (passed.limited (by omega)) (allows_some_iff.mpr (by omega)) refused
  | value passed allowed fits last =>
    rw [List.length_append, List.length_cons] at hle
    exact .value (passed.limited (by omega)) (allows_some_iff.mpr (by omega)) fits last

/-! ## The cut -/

/-- What is decided before the cut is decided in the same way under the limit. -/
theorem readFront_limited_of_decided {result : Except Fault Reading}
    (h : readFront ⟨overflow, none⟩ (bytes.take limit) = result)
    (hdecided : ∀ fault, result = .error fault → fault.needsMore = false) :
    readFront ⟨overflow, some limit⟩ bytes = result := by
  have hending := (readFront_eq_iff.mp h).limited (List.length_take_le limit bytes)
  have hall := hending.append hdecided (bytes.drop limit)
  rw [List.take_append_drop] at hall
  exact readFront_of_ending hall

/-- Where nothing is decided before the cut, the first byte beyond it is one too many. -/
theorem readFront_limited_of_unfinished {fault : Fault}
    (h : readFront ⟨overflow, none⟩ (bytes.take limit) = .error fault)
    (hmore : fault.needsMore = true) :
    readFront ⟨overflow, some limit⟩ bytes =
      if limit < bytes.length then .error (.tooLong limit limit) else .error fault := by
  by_cases hcut : limit < bytes.length
  · rw [if_pos hcut]
    have hlength : (bytes.take limit).length = limit := List.length_take_of_le hcut.le
    have hpassed : Unfinished ⟨overflow, some limit⟩ (bytes.take limit) :=
      ((needsMore_iff_unfinished (decode_eq_error_iff.mpr h)).mp hmore).limited hlength.le
    have hending : Ending ⟨overflow, some limit⟩
        (bytes.take limit ++ bytes[limit] :: bytes.drop (limit + 1))
        (.error (.tooLong (bytes.take limit).length (bytes.take limit).length)) :=
      .tooLong hpassed (congrArg some hlength.symm)
    rw [← List.drop_eq_getElem_cons hcut, List.take_append_drop, hlength] at hending
    exact readFront_of_ending hending
  · -- nothing is cut off
    rw [if_neg hcut]
    have hshort : bytes.length ≤ limit := Nat.le_of_not_lt hcut
    rw [List.take_of_length_le hshort] at h
    exact readFront_of_ending ((readFront_eq_iff.mp h).limited hshort)

/-- The answer under the limit, from the answer on the bytes before the cut. -/
theorem readFront_limited (overflow : Overflow) (limit : ℕ) (bytes : Bytes) :
    readFront ⟨overflow, some limit⟩ bytes =
      match readFront ⟨overflow, none⟩ (bytes.take limit) with
      | .error (.incomplete offset consumed) =>
        if limit < bytes.length then .error (.tooLong limit limit)
        else .error (.incomplete offset consumed)
      | result => result := by
  split
  case h_1 offset consumed h => exact readFront_limited_of_unfinished h rfl
  case h_2 result hdecided =>
    refine readFront_limited_of_decided rfl ?_
    intro fault hfault
    cases fault with
    | incomplete offset consumed => exact absurd hfault (hdecided offset consumed)
    | missingArgument given => rfl
    | overflow offset => rfl
    | tooLong offset limit => rfl
    | valueTooLarge offset value width => rfl

/-- The values under the limit are the values of at most that length. -/
theorem readFront_limited_eq_ok_iff {reading : Reading} :
    readFront ⟨overflow, some limit⟩ bytes = .ok reading ↔
      readFront ⟨overflow, none⟩ bytes = .ok reading ∧ reading.length ≤ limit := by
  rw [readFront_eq_ok_iff, readFront_eq_ok_iff]
  constructor
  · intro h
    obtain ⟨front, rest, hbytes, hlength, hencodes⟩ := h
    have hle : front.length ≤ limit := allows_some_iff.mp hencodes.allowed
    have hunlimited : Encodes ⟨overflow, none⟩ front reading.value :=
      ⟨hencodes.terminated, by simp [Settings.Allows], hencodes.fits, hencodes.value_eq⟩
    exact ⟨⟨front, rest, hbytes, hlength, hunlimited⟩, hlength.trans_le hle⟩
  · intro h
    obtain ⟨⟨front, rest, hbytes, hlength, hencodes⟩, hle⟩ := h
    have hallows : (⟨overflow, some limit⟩ : Settings).Allows front.length :=
      allows_some_iff.mpr (hlength.symm.trans_le hle)
    exact ⟨front, rest, hbytes, hlength,
      ⟨hencodes.terminated, hallows, hencodes.fits, hencodes.value_eq⟩⟩

/-- Of what is beyond the limit it only matters whether there is anything. -/
theorem readFront_limited_congr {other : Bytes} (hfront : other.take limit = bytes.take limit)
    (hcut : limit < other.length ↔ limit < bytes.length) :
    readFront ⟨overflow, some limit⟩ other = readFront ⟨overflow, some limit⟩ bytes := by
  simp only [readFront_limited, hfront, hcut]

/-- And that is only said where the bytes are too long. -/
theorem readFront_limited_congr_or_tooLong {other : Bytes}
    (hfront : other.take limit = bytes.take limit) :
    readFront ⟨overflow, some limit⟩ other = readFront ⟨overflow, some limit⟩ bytes ∨
      readFront ⟨overflow, some limit⟩ other = .error (.tooLong limit limit) ∨
      readFront ⟨overflow, some limit⟩ bytes = .error (.tooLong limit limit) := by
  simp only [readFront_limited, hfront]
  split
  case h_1 =>
    by_cases hother : limit < other.length
    · exact Or.inr (Or.inl (if_pos hother))
    · by_cases hbytes : limit < bytes.length
      · exact Or.inr (Or.inr (if_pos hbytes))
      · exact Or.inl (by rw [if_neg hother, if_neg hbytes])
  case h_2 => exact Or.inl rfl

/-- **A limit is a cut.** The answer under a limit is the answer without one on the bytes
before the cut, but for one case: those bytes end too early, and the cut is to blame. Then
the bytes are too long. What is beyond the cut is not looked at for any other answer, and a
value that uses up the limit is still a value. -/
theorem limit_cuts (overflow : Overflow) (limit : ℕ) (bytes : Bytes) :
    (∀ offset consumed,
      readFront ⟨overflow, none⟩ (bytes.take (min limit bytes.length)) =
          .error (.incomplete offset consumed) →
        limit < bytes.length →
          readFront ⟨overflow, some limit⟩ bytes = .error (.tooLong limit limit)) ∧
      (∀ result, readFront ⟨overflow, none⟩ (bytes.take (min limit bytes.length)) = result →
        ¬ ((∃ offset consumed, result = .error (.incomplete offset consumed)) ∧
            limit < bytes.length) →
          readFront ⟨overflow, some limit⟩ bytes = result) ∧
      (∀ other : Bytes, other.take limit = bytes.take limit →
        (limit < other.length ↔ limit < bytes.length) ∨
            (readFront ⟨overflow, some limit⟩ other ≠ .error (.tooLong limit limit) ∧
              readFront ⟨overflow, some limit⟩ bytes ≠ .error (.tooLong limit limit)) →
          readFront ⟨overflow, some limit⟩ other = readFront ⟨overflow, some limit⟩ bytes) ∧
      (∀ reading, readFront ⟨overflow, none⟩ bytes = .ok reading → reading.length = limit →
        readFront ⟨overflow, some limit⟩ bytes = .ok reading) := by
  rw [← List.take_eq_take_min]
  refine ⟨?_, ?_, ?_, ?_⟩
  · intro offset consumed h hcut
    rw [readFront_limited_of_unfinished h rfl, if_pos hcut]
  · intro result h hother
    by_cases hmore : ∃ offset consumed, result = .error (.incomplete offset consumed)
    · -- the bytes end too early by themselves
      obtain ⟨offset, consumed, rfl⟩ := hmore
      have huncut : ¬ limit < bytes.length := fun hcut => hother ⟨⟨_, _, rfl⟩, hcut⟩
      rw [readFront_limited_of_unfinished h rfl, if_neg huncut]
    · rw [readFront_limited, h]
      split
      case h_1 offset consumed => exact absurd ⟨offset, consumed, rfl⟩ hmore
      case h_2 => rfl
  · intro other hfront hsame
    rcases hsame with hcut | ⟨hother, hbytes⟩
    · exact readFront_limited_congr hfront hcut
    · rcases readFront_limited_congr_or_tooLong hfront with h | h | h
      · exact h
      · exact absurd h hother
      · exact absurd h hbytes
  · intro reading h hlength
    exact readFront_limited_eq_ok_iff.mpr ⟨h, hlength.le⟩

/-- A limit of two, kept by a value of two bytes and not by one that goes on. -/
theorem limit_cuts_two :
    readFront ⟨.reject, some 2⟩ [0xE5, 0x8E, 0x26] = .error (.tooLong 2 2) ∧
      readFront ⟨.reject, some 2⟩ [0xE5, 0x0E, 0x26] = .ok ⟨1893, 2⟩ := by
  constructor
  · exact (limit_cuts .reject 2 [0xE5, 0x8E, 0x26]).1 0 2 (by decide +kernel) (by decide)
  · have hvalue : readFront ⟨.reject, none⟩ [0xE5, 0x0E, 0x26] = .ok ⟨1893, 2⟩ := by
      decide +kernel
    exact (limit_cuts .reject 2 [0xE5, 0x0E, 0x26]).2.2.2 _ hvalue rfl

end Base128

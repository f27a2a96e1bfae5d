import Base128.Proofs.Ending

/-! # When more bytes can help

A fault that asks for more bytes is a promise to whoever reads from a stream:
wait, and the value may still be completed. The promise is kept below the
limit on the length and **broken at the limit**.

* `needsMore_iff_unfinished` — a fault asks for more bytes exactly where the
  decoder passed all that there were.
* `decode_append_zero` — below the limit one zero group completes the value.
* `decode_append_of_full` — at the limit nothing does: the next byte is one too
  many, whatever it is.
* `needsMore_iff_extensible_below_limit` — so this is the one place where the
  promise fails.
-/

namespace Base128

variable {settings : Settings} {bytes : Bytes}

/-! ## Faults that ask for more -/

/-- A fault asks for more bytes where all bytes were passed, and only there. -/
theorem needsMore_iff_unfinished {fault : Fault} (h : decode settings bytes = .error fault) :
    fault.needsMore = true ↔ Unfinished settings bytes := by
  have hending := readFront_eq_iff.mp (decode_eq_error_iff.mp h)
  constructor
  · intro hmore
    cases hending with
    | incomplete passed => exact passed
    | tooLong passed limit => simp [Fault.needsMore] at hmore
    | overflow passed allowed refused => simp [Fault.needsMore] at hmore
  · -- where all bytes were passed, the only answer is the one that asks for more
    intro hpassed
    have hread := readFront_of_ending (Ending.incomplete hpassed)
    rw [readFront_eq_iff.mpr hending] at hread
    rw [Except.error.inj hread]
    rfl

/-- A fault that does not ask for more bytes stays the same with them. -/
theorem decode_append_of_decided {fault : Fault} (h : decode settings bytes = .error fault)
    (hdecided : fault.needsMore = false) (more : Bytes) :
    decode settings (bytes ++ more) = .error fault := by
  have hending := readFront_eq_iff.mp (decode_eq_error_iff.mp h)
  have happend := hending.append (by
    intro other heq
    rwa [← Except.error.inj heq]) more
  exact decode_eq_error_iff.mpr (readFront_of_ending happend)

/-! ## The limit -/

/-- Below the limit there is room for one more byte. -/
theorem Settings.allows_succ_iff {length : ℕ} (h : settings.Allows length) :
    settings.Allows (length + 1) ↔ settings.maxLength ≠ some length := by
  constructor
  · intro hsucc hfull
    have hle := hsucc length hfull
    omega
  · intro hfree limit hlimit
    have hle := h limit hlimit
    have hne : limit ≠ length := by
      rintro rfl
      exact hfree hlimit
    omega

/-- A zero group completes the value and leaves the number as it is. -/
theorem decode_append_zero (h : Unfinished settings bytes)
    (hallows : settings.Allows (bytes.length + 1)) :
    decode settings (bytes ++ [0x00]) = .ok (UInt64.ofNat (magnitude bytes), []) := by
  have hzero : magnitude (bytes ++ [0x00]) = magnitude bytes := by
    have hpayload : (payload 0x00).toNat = 0 := rfl
    rw [magnitude_concat, hpayload, Nat.zero_mul, Nat.add_zero]
  have hencodes : Encodes settings (bytes ++ [0x00]) (UInt64.ofNat (magnitude bytes)) := by
    refine ⟨⟨bytes, 0x00, rfl, h.continues, rfl⟩, by simpa using hallows, ?_, ?_⟩
    · rw [hzero]
      exact h.fits
    · rw [hzero]
  exact decode_eq_ok_iff.mpr ⟨bytes ++ [0x00], by simp, hencodes⟩

/-- A value that has used up the limit cannot be completed. -/
theorem decode_append_of_full (h : Unfinished settings bytes)
    (hfull : settings.maxLength = some bytes.length) (more : Bytes) :
    ∃ fault, decode settings (bytes ++ more) = .error fault := by
  cases more with
  | nil =>
    rw [List.append_nil]
    exact ⟨_, decode_eq_error_iff.mpr (readFront_of_ending (.incomplete h))⟩
  | cons byte rest =>
    exact ⟨_, decode_eq_error_iff.mpr (readFront_of_ending (.tooLong h hfull))⟩

/-- Some bytes help exactly where all bytes so far were passed and the limit is
not used up. -/
theorem exists_decode_append_iff {fault : Fault} (h : decode settings bytes = .error fault) :
    (∃ more value rest, decode settings (bytes ++ more) = .ok (value, rest)) ↔
      Unfinished settings bytes ∧ settings.maxLength ≠ some bytes.length := by
  constructor
  · rintro ⟨more, value, rest, hok⟩
    have hmore : fault.needsMore = true := by
      by_contra hdecided
      rw [Bool.not_eq_true] at hdecided
      rw [decode_append_of_decided h hdecided] at hok
      simp at hok
    have hpassed := (needsMore_iff_unfinished h).mp hmore
    refine ⟨hpassed, ?_⟩
    -- at the limit, `more` would have failed too
    intro hfull
    rcases decode_append_of_full hpassed hfull more with ⟨other, herror⟩
    rw [herror] at hok
    simp at hok
  · rintro ⟨hpassed, hfree⟩
    have hallows := (Settings.allows_succ_iff hpassed.allowed).mpr hfree
    exact ⟨[0x00], _, _, decode_append_zero hpassed hallows⟩

/-- **Where more bytes help.** After a fault, some bytes can complete the value
exactly where the fault asks for them and the limit is not used up. So the
question and the answer differ in one case only: the bytes there are were all
passed, and they are as many as the limit allows. -/
theorem needsMore_iff_extensible_below_limit {fault : Fault}
    (h : decode settings bytes = .error fault) :
    ((∃ more value rest, decode settings (bytes ++ more) = .ok (value, rest)) ↔
        fault.needsMore = true ∧ settings.maxLength ≠ some bytes.length) ∧
      ((fault.needsMore = true ↔
          ∃ more value rest, decode settings (bytes ++ more) = .ok (value, rest)) ↔
        ¬ (Unfinished settings bytes ∧ settings.maxLength = some bytes.length)) := by
  rw [exists_decode_append_iff h, needsMore_iff_unfinished h]
  refine ⟨Iff.rfl, ?_⟩
  tauto

/-- One byte of a value that may have two. -/
theorem needsMore_iff_extensible_below_limit_two :
    decode ⟨.reject, some 2⟩ [0x80] = .error (.incomplete 0 1) ∧
      ∃ more value rest, decode ⟨.reject, some 2⟩ ([0x80] ++ more) = .ok (value, rest) := by
  have h : decode ⟨.reject, some 2⟩ [0x80] = .error (.incomplete 0 1) := by
    decide +kernel
  refine ⟨h, (needsMore_iff_extensible_below_limit h).1.mpr ⟨rfl, ?_⟩⟩
  decide

/-- **The promise that is not kept.** A value that may have one byte has it, and
it was not the last one. The fault still asks for more bytes, and none help. -/
theorem needsMore_at_limit :
    decode ⟨.reject, some 1⟩ [0x80] = .error (.incomplete 0 1) ∧
      (Fault.incomplete 0 1).needsMore = true ∧
      ¬ ∃ more value rest, decode ⟨.reject, some 1⟩ ([0x80] ++ more) = .ok (value, rest) := by
  have h : decode ⟨.reject, some 1⟩ [0x80] = .error (.incomplete 0 1) := by
    decide +kernel
  refine ⟨h, rfl, ?_⟩
  rw [exists_decode_append_iff h]
  rintro ⟨-, hfree⟩
  exact hfree rfl

end Base128

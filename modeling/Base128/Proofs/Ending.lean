import Base128.Decode
import Base128.Proofs.Unfinished

/-! # How a reading ends

A reading from the front of a byte string stops for one of four reasons, and
each of them is a property of the bytes alone.

* `Ending` — the four reasons, with what is answered for each.
* `readFront_eq_iff` — `readFront` answers what `Ending` says, **and nothing
  else**: the relation has exactly one answer for every byte string.
* `Terminated`, `Encodes` — the byte strings that are one value and no more.
* `decode_eq_ok_iff` — decoding succeeds exactly on what starts with such a
  byte string.
-/

namespace Base128

variable {settings : Settings} {bytes : Bytes}

/-- How a reading from the front of a byte string ends. In the last three
cases `front` was passed, and `byte` decided. -/
inductive Ending (settings : Settings) : Bytes → Except Fault Reading → Prop where
  /-- No byte ended the value. -/
  | incomplete {bytes : Bytes} (passed : Unfinished settings bytes) :
      Ending settings bytes (.error (.incomplete 0 bytes.length))
  /-- The limit was used up. -/
  | tooLong {front rest : Bytes} {byte : UInt8} (passed : Unfinished settings front)
      (limit : settings.maxLength = some front.length) :
      Ending settings (front ++ byte :: rest) (.error (.tooLong front.length front.length))
  /-- The number is refused with the group of `byte`, and not before. -/
  | overflow {front rest : Bytes} {byte : UInt8} (passed : Unfinished settings front)
      (allowed : settings.Allows (front.length + 1))
      (refused : ¬ settings.Fits (magnitude (front ++ [byte]))) :
      Ending settings (front ++ byte :: rest) (.error (.overflow front.length))
  /-- The value is complete. -/
  | value {front rest : Bytes} {byte : UInt8} (passed : Unfinished settings front)
      (allowed : settings.Allows (front.length + 1))
      (fits : settings.Fits (magnitude (front ++ [byte]))) (last : isLast byte = true) :
      Ending settings (front ++ byte :: rest)
        (.ok ⟨UInt64.ofNat (magnitude (front ++ [byte])), front.length + 1⟩)

/-! ## The function and the relation -/

/-- Unfinished bytes are passed, whatever follows them. -/
theorem readFront_append {front : Bytes} (h : Unfinished settings front) (rest : Bytes) :
    readFront settings (front ++ rest) = (Progress.after front).scan settings rest := by
  have hseen : Unfinished settings ([] ++ front) := h
  have hscan := Progress.scan_after rest hseen
  simpa [readFront, Progress.after_nil] using hscan

/-- Whatever the relation allows is what `readFront` answers. -/
theorem readFront_of_ending {result : Except Fault Reading}
    (h : Ending settings bytes result) : readFront settings bytes = result := by
  -- in every case the passed bytes are scanned ahead, and one step is left
  cases h with
  | incomplete passed =>
    have hread := readFront_append passed []
    rw [List.append_nil] at hread
    rw [hread, Progress.scan, Progress.after]
  | @tooLong front rest byte passed limit =>
    have hexceeded : settings.exceeded? front.length = some front.length := by
      simp only [Settings.exceeded?, limit, le_refl, if_true]
    rw [readFront_append passed, Progress.scan, Progress.feed_after passed.fits, hexceeded]
  | overflow passed allowed refused =>
    rw [readFront_append passed, Progress.scan, Progress.feed_after passed.fits,
      Settings.exceeded?_eq_none_iff.mpr allowed]
    simp only [if_neg refused]
  | value passed allowed fits last =>
    rw [readFront_append passed, Progress.scan, Progress.feed_after passed.fits,
      Settings.exceeded?_eq_none_iff.mpr allowed]
    simp only [if_pos fits, last, if_true]

/-- Bytes that are not passed to their end have a first byte that decides. -/
theorem unfinished_or_split (settings : Settings) (bytes : Bytes) :
    Unfinished settings bytes ∨
      ∃ front byte rest, bytes = front ++ byte :: rest ∧ Unfinished settings front ∧
        ¬ Unfinished settings (front ++ [byte]) := by
  -- from the back, since the first byte that decides stays the first one
  induction bytes using List.reverseRecOn with
  | nil => exact Or.inl Unfinished.nil
  | append_singleton init byte ih =>
    rcases ih with hinit | ⟨front, decider, rest, rfl, hfront, hstop⟩
    · by_cases h : Unfinished settings (init ++ [byte])
      · exact Or.inl h
      · exact Or.inr ⟨init, byte, [], rfl, hinit, h⟩
    · exact Or.inr ⟨front, decider, rest ++ [byte], by simp, hfront, hstop⟩

/-- The relation allows some answer for every byte string. -/
theorem exists_ending (settings : Settings) (bytes : Bytes) :
    ∃ result, Ending settings bytes result := by
  rcases unfinished_or_split settings bytes with h | ⟨front, byte, rest, rfl, hfront, hstop⟩
  · exact ⟨_, .incomplete h⟩
  · by_cases hallows : settings.Allows (front.length + 1)
    · by_cases hfits : settings.Fits (magnitude (front ++ [byte]))
      · -- nothing but the top bit is left to stop at
        have hlast : isLast byte = true := by
          by_contra hlast
          exact hstop (Unfinished.concat_iff.mpr
            ⟨hfront, Bool.eq_false_iff.mpr hlast, hallows, hfits⟩)
        exact ⟨_, .value hfront hallows hfits hlast⟩
      · exact ⟨_, .overflow hfront hallows hfits⟩
    · -- the limit was kept so far, so it is exactly used up
      obtain ⟨limit, hmax, hlt⟩ : ∃ limit, settings.maxLength = some limit ∧
          limit < front.length + 1 := by
        simpa [Settings.Allows] using hallows
      have hle := hfront.allowed limit hmax
      have heq : limit = front.length := by omega
      exact ⟨_, .tooLong hfront (heq ▸ hmax)⟩

/-- The relation and the function say the same. -/
theorem readFront_eq_iff {result : Except Fault Reading} :
    readFront settings bytes = result ↔ Ending settings bytes result := by
  constructor
  · -- some answer is allowed, and it is the one that was given
    rintro rfl
    rcases exists_ending settings bytes with ⟨result, h⟩
    rwa [readFront_of_ending h]
  · exact readFront_of_ending

/-- Once a reading has been decided, later bytes make no difference. -/
theorem Ending.append {result : Except Fault Reading} (h : Ending settings bytes result)
    (hdecided : ∀ fault, result = .error fault → fault.needsMore = false) (more : Bytes) :
    Ending settings (bytes ++ more) result := by
  cases h with
  | incomplete passed => simpa [Fault.needsMore] using hdecided _ rfl
  | tooLong passed limit =>
    rw [List.append_assoc, List.cons_append]
    exact .tooLong passed limit
  | overflow passed allowed refused =>
    rw [List.append_assoc, List.cons_append]
    exact .overflow passed allowed refused
  | value passed allowed fits last =>
    rw [List.append_assoc, List.cons_append]
    exact .value passed allowed fits last

/-! ## Encodings -/

/-- Of these bytes the last one, and no other, has its top bit clear. -/
def Terminated (bytes : Bytes) : Prop :=
  ∃ front last, bytes = front ++ [last] ∧ (∀ byte ∈ front, isLast byte = false) ∧
    isLast last = true

theorem Terminated.length_pos (h : Terminated bytes) : 0 < bytes.length := by
  rcases h with ⟨front, last, rfl, -⟩
  simp

/-- `bytes` is an encoding of `value`, and nothing more. -/
structure Encodes (settings : Settings) (bytes : Bytes) (value : UInt64) : Prop where
  terminated : Terminated bytes
  allowed : settings.Allows bytes.length
  fits : settings.Fits (magnitude bytes)
  value_eq : value = UInt64.ofNat (magnitude bytes)

/-- A reading is an encoding found at the front. -/
theorem readFront_eq_ok_iff {reading : Reading} :
    readFront settings bytes = .ok reading ↔
      ∃ front rest, bytes = front ++ rest ∧ reading.length = front.length ∧
        Encodes settings front reading.value := by
  rw [readFront_eq_iff]
  constructor
  · intro h
    cases h with
    | @value front rest byte passed allowed fits last =>
      refine ⟨front ++ [byte], rest, by simp, by simp, ?_⟩
      exact ⟨⟨front, byte, rfl, passed.continues, last⟩, by simpa using allowed, fits, rfl⟩
  · rintro ⟨_, rest, rfl, hlength, ⟨front, last, rfl, hfront, hlast⟩, hallows, hfits, hvalue⟩
    have hallows' : settings.Allows (front.length + 1) := by simpa using hallows
    have hpassed : Unfinished settings front :=
      ⟨hfront, hallows'.mono (by omega), hfits.mono (magnitude_le_append front [last])⟩
    have hreading : reading = ⟨UInt64.ofNat (magnitude (front ++ [last])), front.length + 1⟩ := by
      cases reading
      simp_all
    rw [hreading, List.append_assoc, List.singleton_append]
    exact .value hpassed hallows' hfits hlast

theorem decode_eq_error_iff {fault : Fault} :
    decode settings bytes = .error fault ↔ readFront settings bytes = .error fault := by
  unfold decode
  cases readFront settings bytes <;> simp [Except.map]

/-- **Acceptance.** Decoding succeeds exactly on an encoding with anything
behind it, and gives back what is behind it. -/
theorem decode_eq_ok_iff {value : UInt64} {rest : Bytes} :
    decode settings bytes = .ok (value, rest) ↔
      ∃ front, bytes = front ++ rest ∧ Encodes settings front value := by
  constructor
  · intro h
    unfold decode at h
    cases hread : readFront settings bytes with
    | error fault => simp [hread, Except.map] at h
    | ok reading =>
      obtain ⟨front, back, rfl, hlength, hencodes⟩ := readFront_eq_ok_iff.mp hread
      simp only [hread, Except.map, hlength, List.drop_left, Except.ok.injEq, Prod.mk.injEq] at h
      obtain ⟨rfl, rfl⟩ := h
      exact ⟨front, rfl, hencodes⟩
  · rintro ⟨front, rfl, hencodes⟩
    have hread : readFront settings (front ++ rest) = .ok ⟨value, front.length⟩ :=
      readFront_eq_ok_iff.mpr ⟨front, rest, rfl, rfl, hencodes⟩
    simp [decode, hread, Except.map]

end Base128

import Base128.Progress
import Base128.Proofs.Magnitude
import Base128.Proofs.Placement

/-! # The decoder in the middle of a value

What the decoder knows between two bytes is a function of the bytes it has
seen, however many there were.

* `Settings.Allows`, `Settings.Fits` — what the settings say of a length and of
  a number.
* `Unfinished` — the byte strings after which the decoder **goes on**: no byte
  ended the value, the limit was kept, and the number is not refused.
* `Progress.after` — the state after such a byte string. The value is the
  number modulo `2 ^ 64`, and the shift is seven bits a byte until the 32-bit
  counter stands still.
* `Progress.merged?_eq` — merging a group, whichever way it is placed.
* `Progress.feed_after` — what one more byte does to that state, in terms of
  the number alone.
* `Progress.scan_after` — so unfinished bytes can be scanned ahead.
-/

namespace Base128

/-! ## What the settings accept -/

namespace Settings

variable {settings : Settings}

/-- An encoding of this many bytes keeps the limit. -/
def Allows (settings : Settings) (length : ℕ) : Prop :=
  ∀ limit, settings.maxLength = some limit → length ≤ limit

/-- This number is not refused for its size. -/
def Fits (settings : Settings) (number : ℕ) : Prop :=
  settings.overflow = .reject → number < 2 ^ 64

instance (settings : Settings) (length : ℕ) : Decidable (settings.Allows length) :=
  decidable_of_iff (∀ limit ∈ settings.maxLength, length ≤ limit) Iff.rfl

instance (settings : Settings) (number : ℕ) : Decidable (settings.Fits number) :=
  inferInstanceAs (Decidable (_ → _))

theorem allows_zero : settings.Allows 0 := fun _ _ => Nat.zero_le _

theorem Allows.mono {short long : ℕ} (h : settings.Allows long) (hle : short ≤ long) :
    settings.Allows short :=
  fun limit hlimit => hle.trans (h limit hlimit)

theorem Fits.mono {small large : ℕ} (h : settings.Fits large) (hle : small ≤ large) :
    settings.Fits small :=
  fun hreject => lt_of_le_of_lt hle (h hreject)

/-- Where numbers are wrapped, none is refused. -/
theorem fits_of_wrap (hwrap : settings.overflow = .wrap) (number : ℕ) :
    settings.Fits number := by
  intro hreject
  simp [hwrap] at hreject

/-- A byte within the limit makes an encoding that keeps it. -/
theorem exceeded?_eq_none_iff {index : ℕ} :
    settings.exceeded? index = none ↔ settings.Allows (index + 1) := by
  cases hmax : settings.maxLength with
  | none => simp [exceeded?, Allows, hmax]
  | some limit => simp [exceeded?, Allows, hmax]

end Settings

/-! ## Unfinished byte strings -/

/-- After these bytes the decoder goes on with the next one. -/
structure Unfinished (settings : Settings) (bytes : Bytes) : Prop where
  continues : ∀ byte ∈ bytes, isLast byte = false
  allowed : settings.Allows bytes.length
  fits : settings.Fits (magnitude bytes)

namespace Unfinished

variable {settings : Settings}

theorem nil : Unfinished settings [] where
  continues := by simp
  allowed := Settings.allows_zero
  fits := fun _ => by simp

/-- Every part from the front of an unfinished byte string is unfinished. -/
theorem of_append {front back : Bytes} (h : Unfinished settings (front ++ back)) :
    Unfinished settings front where
  continues := fun byte hbyte => h.continues byte (List.mem_append_left back hbyte)
  allowed := h.allowed.mono (by simp)
  fits := h.fits.mono (magnitude_le_append front back)

theorem concat_iff {bytes : Bytes} {byte : UInt8} :
    Unfinished settings (bytes ++ [byte]) ↔
      Unfinished settings bytes ∧ isLast byte = false ∧ settings.Allows (bytes.length + 1) ∧
        settings.Fits (magnitude (bytes ++ [byte])) := by
  constructor
  · intro h
    refine ⟨h.of_append, h.continues byte (by simp), ?_, h.fits⟩
    simpa using h.allowed
  · rintro ⟨h, hlast, hallows, hfits⟩
    refine ⟨?_, by simpa using hallows, hfits⟩
    intro b hb
    rcases List.mem_append.mp hb with hfront | hback
    · exact h.continues b hfront
    · rw [List.mem_singleton.mp hback]
      exact hlast

end Unfinished

/-! ## The state after unfinished bytes -/

/-- The count stops at its largest value, wherever it would be without bound. -/
theorem nextShift_ofNat (count : ℕ) :
    nextShift (UInt32.ofNat (min count 0xFFFFFFFF)) = UInt32.ofNat (min (count + 7) 0xFFFFFFFF) := by
  have hcount : (UInt32.ofNat (min count 0xFFFFFFFF)).toNat = min count 0xFFFFFFFF := by
    rw [UInt32.toNat_ofNat', Nat.mod_eq_of_lt (by omega)]
  have hroom : UInt32.ofNat (min count 0xFFFFFFFF) ≤ 0xFFFFFFFF - 7 ↔ count + 7 ≤ 0xFFFFFFFF := by
    have hbound : (0xFFFFFFFF - 7 : UInt32).toNat = 0xFFFFFFFF - 7 := rfl
    rw [UInt32.le_iff_toNat_le, hcount, hbound]
    omega
  unfold nextShift
  split_ifs with h
  · -- the count still has room for seven more
    have hle := hroom.mp h
    rw [min_eq_left (by omega), min_eq_left hle, UInt32.ofNat_add]
    rfl
  · -- it has not, and stands at its largest value from here on
    have hgt := mt hroom.mpr h
    rw [min_eq_right (by omega)]
    rfl

namespace Progress

variable {settings : Settings}

/-- The state after `seen`, if no byte of it ended the value or was refused. -/
def after (seen : Bytes) : Progress where
  index := seen.length
  value := UInt64.ofNat (magnitude seen)
  shift := UInt32.ofNat (min (7 * seen.length) 0xFFFFFFFF)

/-- Before the first byte the decoder has seen nothing. -/
theorem after_nil : after [] = {} := rfl

theorem toNat_shift_after (seen : Bytes) :
    (after seen).shift.toNat = min (7 * seen.length) 0xFFFFFFFF := by
  rw [after, UInt32.toNat_ofNat', Nat.mod_eq_of_lt (by omega)]

/-- A count that stands still does no harm: it does so far beyond bit 64, where
all places are alike. -/
theorem ofNat_mul_shift_after (seen : Bytes) (group : ℕ) :
    UInt64.ofNat (group * 2 ^ (after seen).shift.toNat) =
      UInt64.ofNat (group * 2 ^ (7 * seen.length)) := by
  rw [toNat_shift_after]
  rcases le_total (7 * seen.length) 0xFFFFFFFF with hle | hge
  · rw [min_eq_left hle]
  · rw [min_eq_right hge, ofNat_mul_two_pow_of_le (by decide),
      ofNat_mul_two_pow_of_le (le_trans (by decide) hge)]

theorem mul_shift_after_lt_iff (seen : Bytes) (group : ℕ) :
    group * 2 ^ (after seen).shift.toNat < 2 ^ 64 ↔ group * 2 ^ (7 * seen.length) < 2 ^ 64 := by
  rw [toNat_shift_after]
  rcases le_total (7 * seen.length) 0xFFFFFFFF with hle | hge
  · rw [min_eq_left hle]
  · rw [min_eq_right hge, mul_two_pow_lt_iff_of_le (by decide),
      mul_two_pow_lt_iff_of_le (le_trans (by decide) hge)]

/-- Whichever way a group is placed, the bits with room are merged, unless the settings
refuse to lose the others. -/
theorem merged?_eq (settings : Settings) (progress : Progress) (byte : UInt8) :
    progress.merged? settings byte =
      if settings.Fits ((payload byte).toNat * 2 ^ progress.shift.toNat)
      then some (progress.value ||| placedLow (payload byte) progress.shift) else none := by
  unfold merged?
  rw [placed?_eq, placedLow_eq]
  by_cases hroom : (payload byte).toNat * 2 ^ progress.shift.toNat < 2 ^ 64
  · have hfits : settings.Fits ((payload byte).toNat * 2 ^ progress.shift.toNat) := fun _ => hroom
    simp only [if_pos hroom, if_pos hfits]
  · rw [if_neg hroom]
    cases hoverflow : settings.overflow with
    | reject =>
      have hrefused : ¬ settings.Fits ((payload byte).toNat * 2 ^ progress.shift.toNat) :=
        fun h => hroom (h hoverflow)
      simp only [if_neg hrefused]
    | wrap => simp only [if_pos (Settings.fits_of_wrap hoverflow _)]

/-- Where a number is not refused, it stays so with one more byte exactly if the group of
this byte has room by itself. -/
theorem fits_concat_iff {seen : Bytes} (hfits : settings.Fits (magnitude seen)) (byte : UInt8) :
    settings.Fits ((payload byte).toNat * 2 ^ (after seen).shift.toNat) ↔
      settings.Fits (magnitude (seen ++ [byte])) := by
  unfold Settings.Fits at hfits ⊢
  rw [mul_shift_after_lt_iff, magnitude_concat]
  constructor
  · intro hroom hreject
    exact add_mul_two_pow_lt (magnitude_lt seen) (hfits hreject) (hroom hreject)
  · intro hsum hreject
    have hlt := hsum hreject
    omega

/-- Merging the group of one more byte gives the number with that byte, unless
this number is refused. -/
theorem merged?_after {seen : Bytes} (hfits : settings.Fits (magnitude seen)) (byte : UInt8) :
    (after seen).merged? settings byte =
      if settings.Fits (magnitude (seen ++ [byte]))
      then some (UInt64.ofNat (magnitude (seen ++ [byte]))) else none := by
  have hmerge : (after seen).value ||| placedLow (payload byte) (after seen).shift =
      UInt64.ofNat (magnitude (seen ++ [byte])) := by
    rw [placedLow_eq, ofNat_mul_shift_after, magnitude_concat,
      ofNat_add_mul_two_pow (magnitude_lt seen), after]
  simp only [merged?_eq, hmerge, fits_concat_iff hfits]

/-- **The step law.** What one more byte leads to, told without words and
shifts: the limit is asked first, then the number, then the top bit. -/
theorem feed_after {seen : Bytes} (hfits : settings.Fits (magnitude seen)) (byte : UInt8) :
    (after seen).feed settings byte =
      match settings.exceeded? seen.length with
      | some limit => .fails (.tooLong seen.length limit)
      | none =>
        if settings.Fits (magnitude (seen ++ [byte])) then
          if isLast byte then .ends ⟨UInt64.ofNat (magnitude (seen ++ [byte])), seen.length + 1⟩
          else .goesOn (after (seen ++ [byte]))
        else .fails (.overflow seen.length) := by
  have hindex : (after seen).index = seen.length := rfl
  unfold feed
  rw [hindex, merged?_after hfits]
  cases settings.exceeded? seen.length with
  | some limit => rfl
  | none =>
    by_cases hroom : settings.Fits (magnitude (seen ++ [byte]))
    · have hnext : nextShift (after seen).shift = (after (seen ++ [byte])).shift := by
        rw [after, nextShift_ofNat, after, List.length_append, List.length_singleton, Nat.mul_succ]
      simp only [if_pos hroom, hnext]
      congr 2
      simp [after]
    · simp only [if_neg hroom]

/-- Bytes that leave the value unfinished are passed one by one. -/
theorem feed_after_of_unfinished {seen : Bytes} {byte : UInt8}
    (h : Unfinished settings (seen ++ [byte])) :
    (after seen).feed settings byte = .goesOn (after (seen ++ [byte])) := by
  obtain ⟨hseen, hlast, hallows, hfits⟩ := Unfinished.concat_iff.mp h
  rw [feed_after hseen.fits, Settings.exceeded?_eq_none_iff.mpr hallows]
  simp [hfits, hlast]

/-- **The run law.** Scanning runs through unfinished bytes and stands after
them. -/
theorem scan_after {seen more : Bytes} (rest : Bytes)
    (h : Unfinished settings (seen ++ more)) :
    (after seen).scan settings (more ++ rest) = (after (seen ++ more)).scan settings rest := by
  -- one byte at a time moves from `more` to `seen`
  induction more generalizing seen with
  | nil => simp
  | cons byte more ih =>
    have hsplit : seen ++ byte :: more = (seen ++ [byte]) ++ more := by simp
    rw [hsplit] at h ⊢
    rw [List.cons_append, scan, feed_after_of_unfinished h.of_append]
    exact ih h

end Progress

end Base128

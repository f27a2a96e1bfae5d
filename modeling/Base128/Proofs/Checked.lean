import Base128.Decode
import Mathlib.Algebra.Ring.Nat
import Mathlib.Tactic.Common

/-! # Checked arithmetic

The library counts bytes in natural numbers. A machine counts them in words of 64
bits, where a sum can be too large, a difference negative, a slice out of range and a
shift too far. Here every such operation is a computation that may trap, and the
decoder is written with these operations once more.

* `Trap`, `Checked` — the ways in which a computation cannot go on, and the
  computations.
* `Checked.add`, `Checked.sub`, `Checked.suffix`, `Checked.first`,
  `Checked.shiftRight`, `Checked.require` — the operations that may trap.
* `Checked.readFront`, `Checked.decode`, `Checked.rebase` — decoding, and moving
  faults, with these operations.
* `Checked.readFront_eq`, `Checked.decode_eq`, `Checked.rebase_eq` — on bytes that a
  word can count, they **do not trap, and give what the library gives**.
-/

namespace Base128

/-- Why a computation cannot go on. -/
inductive Trap where
  /-- A sum does not fit a word. -/
  | overflow
  /-- A difference would be negative. -/
  | underflow
  /-- A slice or an element lies outside of what it is taken from. -/
  | outOfRange
  /-- A word is shifted by all of its bits or more. -/
  | shift
  /-- What was asserted does not hold. -/
  | assertion
deriving DecidableEq, Repr

/-- A computation that may trap. -/
abbrev Checked := Except Trap

namespace Checked

/-- The number of values of a word. -/
def wordSize : ℕ := 2 ^ 64

/-! ## The operations that may trap -/

/-- A sum, where it fits a word. -/
def add (a b : ℕ) : Checked ℕ :=
  if a + b < wordSize then .ok (a + b) else .error .overflow

/-- A difference, where it is not negative. -/
def sub (a b : ℕ) : Checked ℕ :=
  if b ≤ a then .ok (a - b) else .error .underflow

/-- The bytes from `start` on, which may be the place behind the last byte, but none
beyond. -/
def suffix (bytes : Bytes) (start : ℕ) : Checked Bytes :=
  if start ≤ bytes.length then .ok (bytes.drop start) else .error .outOfRange

/-- The first of several byte strings, where there is one. -/
def first (buffers : List Bytes) : Checked Bytes :=
  match buffers with
  | [] => .error .outOfRange
  | bytes :: _ => .ok bytes

/-- A word moved down, by less than its width. -/
def shiftRight (bits : UInt64) (shift : UInt32) : Checked UInt64 :=
  if shift < 64 then .ok (bits >>> shift.toUInt64) else .error .shift

/-- Goes on only where `claim` holds. -/
def require (claim : Prop) [Decidable claim] : Checked Unit :=
  if claim then .ok () else .error .assertion

section Operations

variable {α β : Type} {a b : ℕ}

@[simp] theorem ok_bind (result : α) (next : α → Checked β) :
    (Except.ok result : Checked α) >>= next = next result := rfl

@[simp] theorem pure_eq (result : α) : (pure result : Checked α) = .ok result := rfl

theorem exists_of_bind_eq_ok {step : Checked α} {next : α → Checked β} {last : β}
    (h : step >>= next = .ok last) : ∃ result, step = .ok result ∧ next result = .ok last := by
  cases step with
  | error trap => simp [bind, Except.bind] at h
  | ok result => exact ⟨result, rfl, h⟩

theorem add_eq (h : a + b < wordSize) : add a b = .ok (a + b) := if_pos h

theorem eq_add_of_add {sum : ℕ} (h : add a b = .ok sum) : sum = a + b := by
  unfold add at h
  split_ifs at h with hfits
  exact (Except.ok.inj h).symm

theorem sub_eq (h : b ≤ a) : sub a b = .ok (a - b) := if_pos h

theorem suffix_eq {bytes : Bytes} {start : ℕ} (h : start ≤ bytes.length) :
    suffix bytes start = .ok (bytes.drop start) := if_pos h

theorem shiftRight_eq {bits : UInt64} {shift : UInt32} (h : shift < 64) :
    shiftRight bits shift = .ok (bits >>> shift.toUInt64) := if_pos h

theorem require_eq {claim : Prop} [Decidable claim] (h : claim) : require claim = .ok () :=
  if_pos h

theorem of_require {claim : Prop} [Decidable claim] (h : require claim = .ok ()) : claim := by
  unfold require at h
  split_ifs at h with hclaim
  exact hclaim

end Operations

/-! ## Decoding -/

/-- `group` moved up without loss. To see whether bits are lost, it is moved down
again, which is where a shift could go too far. -/
def placed? (group : UInt64) (shift : UInt32) : Checked (Option UInt64) :=
  if group = 0 then return some 0
  else match lifted? group shift with
    | none => return none
    | some bits => do
      let back ← shiftRight bits shift
      return if back = group then some bits else none

/-- The value after the group of one more byte. -/
def merged? (settings : Settings) (progress : Progress) (byte : UInt8) :
    Checked (Option UInt64) := do
  match ← placed? (payload byte) progress.shift, settings.overflow with
  | some bits, _ => return some (progress.value ||| bits)
  | none, .reject => return none
  | none, .wrap => return some (progress.value ||| placedLow (payload byte) progress.shift)

/-- What one more byte leads to. -/
def feed (settings : Settings) (progress : Progress) (byte : UInt8) : Checked Step :=
  match settings.exceeded? progress.index with
  | some limit => return .fails (.tooLong progress.index limit)
  | none => do
    match ← merged? settings progress byte with
    | none => return .fails (.overflow progress.index)
    | some value =>
      let index ← add progress.index 1
      return if isLast byte then .ends ⟨value, index⟩
        else .goesOn ⟨index, value, nextShift progress.shift⟩

/-- Feeds bytes until the value ends or is refused. -/
def scan (settings : Settings) (progress : Progress) : Bytes → Checked (Except Fault Reading)
  | [] => return .error (.incomplete 0 progress.index)
  | byte :: rest => do
    match ← feed settings progress byte with
    | .goesOn progress => scan settings progress rest
    | .ends reading => return .ok reading
    | .fails fault => return .error fault

/-- The value at the front of `bytes` and the number of bytes it occupies. -/
def readFront (settings : Settings) (bytes : Bytes) : Checked (Except Fault Reading) :=
  scan settings {} bytes

/-- The value at the front of `bytes`, and the bytes after it. -/
def decode (settings : Settings) (bytes : Bytes) : Checked (Except Fault (UInt64 × Bytes)) := do
  match ← readFront settings bytes with
  | .error fault => return .error fault
  | .ok reading =>
    let rest ← suffix bytes reading.length
    return .ok (reading.value, rest)

/-- A fault with its position counted from an earlier start. -/
def rebase (base : ℕ) : Fault → Checked Fault
  | .missingArgument given => return .missingArgument given
  | .incomplete offset consumed => return .incomplete (← add offset base) consumed
  | .overflow offset => return .overflow (← add offset base)
  | .tooLong offset limit => return .tooLong (← add offset base) limit
  | .valueTooLarge offset value width => return .valueTooLarge (← add offset base) value width

section Decoding

variable {settings : Settings} {bytes : Bytes}

/-- A group is moved down only by as much as it was moved up before. -/
theorem placed?_eq (group : UInt64) (shift : UInt32) :
    placed? group shift = .ok (Base128.placed? group shift) := by
  unfold placed? Base128.placed?
  split_ifs with hzero
  · rfl
  · by_cases hshift : shift < 64
    · have hlifted : lifted? group shift = some (group <<< shift.toUInt64) := if_pos hshift
      rw [hlifted]
      simp only [shiftRight_eq hshift, ok_bind, pure_eq]
    · have hlifted : lifted? group shift = none := if_neg hshift
      rw [hlifted]
      rfl

theorem merged?_eq (settings : Settings) (progress : Progress) (byte : UInt8) :
    merged? settings progress byte = .ok (progress.merged? settings byte) := by
  unfold merged? Progress.merged?
  rw [placed?_eq, ok_bind]
  cases Base128.placed? (payload byte) progress.shift with
  | some bits => rfl
  | none => cases settings.overflow <;> rfl

theorem feed_eq {progress : Progress} (h : progress.index + 1 < wordSize) (byte : UInt8) :
    feed settings progress byte = .ok (progress.feed settings byte) := by
  unfold feed Progress.feed
  cases settings.exceeded? progress.index with
  | some limit => rfl
  | none =>
    simp only [merged?_eq, ok_bind]
    cases progress.merged? settings byte with
    | none => rfl
    | some value =>
      simp only [add_eq h, ok_bind, pure_eq]

/-- The bytes seen and those to come are counted by one word all along. -/
theorem scan_eq {progress : Progress} (h : progress.index + bytes.length < wordSize) :
    scan settings progress bytes = .ok (progress.scan settings bytes) := by
  induction bytes generalizing progress with
  | nil => rfl
  | cons byte rest ih =>
    rw [List.length_cons] at h
    rw [scan, feed_eq (by omega), ok_bind, Progress.scan]
    cases hfeed : progress.feed settings byte with
    | goesOn next =>
      have hindex := Progress.index_of_feed_goesOn hfeed
      exact ih (by omega)
    | ends reading => rfl
    | fails fault => rfl

theorem readFront_eq (h : bytes.length < wordSize) :
    readFront settings bytes = .ok (Base128.readFront settings bytes) := by
  refine scan_eq ?_
  rwa [Nat.zero_add]

/-- The slice behind a value is in range, since no value is longer than the bytes. -/
theorem decode_eq (h : bytes.length < wordSize) :
    decode settings bytes = .ok (Base128.decode settings bytes) := by
  rw [decode, readFront_eq h, ok_bind, Base128.decode]
  cases hread : Base128.readFront settings bytes with
  | error fault => rfl
  | ok reading =>
    have hlength := (length_of_readFront hread).2
    simp only [suffix_eq hlength, ok_bind]
    rfl

end Decoding

end Checked

/-- The position that a fault names, if it names one. -/
def Fault.place? : Fault → Option ℕ
  | missingArgument _ => none
  | incomplete offset _ | overflow offset | tooLong offset _ | valueTooLarge offset _ _ =>
    some offset

theorem Checked.rebase_eq {base : ℕ} {fault : Fault}
    (h : ∀ place ∈ fault.place?, place + base < wordSize) :
    rebase base fault = .ok (fault.rebase base) := by
  cases fault with
  | missingArgument given => rfl
  | incomplete offset consumed =>
    rw [rebase, add_eq (h offset rfl)]
    rfl
  | overflow offset =>
    rw [rebase, add_eq (h offset rfl)]
    rfl
  | tooLong offset limit =>
    rw [rebase, add_eq (h offset rfl)]
    rfl
  | valueTooLarge offset value width =>
    rw [rebase, add_eq (h offset rfl)]
    rfl

end Base128

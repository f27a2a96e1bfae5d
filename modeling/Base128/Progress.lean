import Base128.Byte
import Base128.Fault
import Base128.Group
import Base128.Settings

/-! # Decoding byte by byte

`Progress.scan` is the loop of `decode_prefix`, and `Progress.feed` its body. Every
byte meets the same three questions, **in this order**: does it lie within the limit
on the length, is there room for its group, and is it the last one? So a byte beyond
the limit is never reported as an overflow.
-/

namespace Base128

/-- A decoded value and the number of bytes that it occupied. -/
structure Reading where
  value : UInt64
  length : Nat
deriving DecidableEq, Repr

/-- A decoder between two bytes: bytes seen, their groups each at its place, and the
place of the next group in bits. -/
structure Progress where
  index : Nat := 0
  value : UInt64 := 0
  shift : UInt32 := 0
deriving DecidableEq, Repr

/-- What one more byte leads to. -/
inductive Step where
  | goesOn (progress : Progress)
  | ends (reading : Reading)
  | fails (fault : Fault)
deriving DecidableEq, Repr

/-- The place of the group after the one at `shift`. The count stays at its
largest value once it is there: starting again at a low bit would let late
padding change the value. -/
def nextShift (shift : UInt32) : UInt32 :=
  if shift ≤ 0xFFFFFFFF - 7 then shift + 7 else 0xFFFFFFFF

namespace Progress

/-- The value after the group of one more byte, or `none` where the settings
refuse to lose a bit of it. -/
def merged? (settings : Settings) (progress : Progress) (byte : UInt8) : Option UInt64 :=
  match placed? (payload byte) progress.shift, settings.overflow with
  | some bits, _ => some (progress.value ||| bits)
  | none, .reject => none
  | none, .wrap => some (progress.value ||| placedLow (payload byte) progress.shift)

/-- What one more byte leads to. -/
def feed (settings : Settings) (progress : Progress) (byte : UInt8) : Step :=
  match settings.exceeded? progress.index with
  | some limit => .fails (.tooLong progress.index limit)
  | none =>
    match progress.merged? settings byte with
    | none => .fails (.overflow progress.index)
    | some value =>
      if isLast byte then .ends ⟨value, progress.index + 1⟩
      else .goesOn ⟨progress.index + 1, value, nextShift progress.shift⟩

/-- Feeds bytes until the value ends or is refused. Bytes after that are not
looked at. -/
def scan (settings : Settings) (progress : Progress) : Bytes → Except Fault Reading
  | [] => .error (.incomplete 0 progress.index)
  | byte :: rest =>
    match progress.feed settings byte with
    | .goesOn progress => progress.scan settings rest
    | .ends reading => .ok reading
    | .fails fault => .error fault

/-- The value goes on only with a group that was merged. -/
theorem merged?_of_feed_goesOn {settings : Settings} {progress next : Progress} {byte : UInt8}
    (h : progress.feed settings byte = .goesOn next) :
    progress.merged? settings byte = some next.value ∧ next.index = progress.index + 1 ∧
      next.shift = nextShift progress.shift := by
  simp only [feed] at h
  split at h
  · simp at h
  · split at h
    · simp at h
    · rename_i value hmerged
      split at h
      · simp at h
      · simp only [Step.goesOn.injEq] at h
        simp [← h, hmerged]

/-- The value ends only with a group that was merged. -/
theorem merged?_of_feed_ends {settings : Settings} {progress : Progress} {byte : UInt8}
    {reading : Reading} (h : progress.feed settings byte = .ends reading) :
    progress.merged? settings byte = some reading.value ∧
      reading.length = progress.index + 1 := by
  simp only [feed] at h
  split at h
  · simp at h
  · split at h
    · simp at h
    · rename_i value hmerged
      split at h
      · simp only [Step.ends.injEq] at h
        simp [← h, hmerged]
      · simp at h

theorem index_of_feed_goesOn {settings : Settings} {progress next : Progress} {byte : UInt8}
    (h : progress.feed settings byte = .goesOn next) : next.index = progress.index + 1 :=
  (merged?_of_feed_goesOn h).2.1

theorem length_of_feed_ends {settings : Settings} {progress : Progress} {byte : UInt8}
    {reading : Reading} (h : progress.feed settings byte = .ends reading) :
    reading.length = progress.index + 1 :=
  (merged?_of_feed_ends h).2

/-- A value occupies at least one byte and no more than there are. -/
theorem length_of_scan {settings : Settings} {bytes : Bytes} {progress : Progress}
    {reading : Reading} (h : progress.scan settings bytes = .ok reading) :
    progress.index < reading.length ∧ reading.length ≤ progress.index + bytes.length := by
  induction bytes generalizing progress with
  | nil => simp [scan] at h
  | cons byte rest ih =>
    simp only [scan] at h
    split at h
    · rename_i next hfeed
      have hnext := index_of_feed_goesOn hfeed
      have hrest := ih h
      simp only [List.length_cons]
      omega
    · rename_i ended hfeed
      have hlength := length_of_feed_ends hfeed
      simp only [Except.ok.injEq] at h
      subst h
      simp only [List.length_cons]
      omega
    · simp at h

end Progress

end Base128

import Mathlib.Data.List.SplitBy
import Mathlib.Order.Bounds.Basic
import Base128.Proofs.Canonical
import Base128.Proofs.Course
import Base128.Proofs.Extension
import Base128.Proofs.Malformed

/-! # Validity without a cursor

Whether a file is valid can be told from its top bits, which cut it into segments,
and from each segment by itself. No cursor walks the file, and nothing of one
segment matters to another.

* `segments` — a byte string, cut behind every byte that ends a number.
* `segment_induction` — a byte string is empty, or **one open segment**, or a
  terminated one and what stands behind it.
* `Sound` — the segments that are values under some settings.
* `walk_sound` — validation passes sound segments, one by one.
* `check_of_not_sound` — the first segment that is not sound is all that a fault
  depends on.
* `check_by_segments` — so validity is a property of the segments, and the first
  one to lack it says where the file is malformed.
-/

namespace Base128

open Validity (Finding Totals)

/-! ## Segments -/

/-- The bytes, cut behind each one that ends a number: a byte stays with the next
one as long as it continues. The last segment may be without an end. -/
def segments (bytes : Bytes) : List Bytes := bytes.splitBy fun byte _ => !isLast byte

@[simp] theorem segments_nil : segments [] = [] := List.splitBy_nil _

theorem flatten_segments (bytes : Bytes) : (segments bytes).flatten = bytes :=
  List.flatten_splitBy _ bytes

/-- There is no cut among bytes that all continue. -/
theorem isChain_of_continues {bytes : Bytes} (h : ∀ byte ∈ bytes, isLast byte = false) :
    bytes.IsChain fun byte _ => (!isLast byte) = true := by
  apply List.Pairwise.isChain
  rw [List.pairwise_iff_forall_sublist]
  intro byte other hsub
  rw [h byte (hsub.subset (by simp))]
  rfl

/-- Bytes that all continue are one segment, without an end. -/
theorem segments_of_continues {bytes : Bytes} (hne : bytes ≠ [])
    (h : ∀ byte ∈ bytes, isLast byte = false) : segments bytes = [bytes] :=
  List.splitBy_of_isChain hne (isChain_of_continues h)

/-- A terminated byte string in front is the first segment. -/
theorem segments_append {front : Bytes} (h : Terminated front) (rest : Bytes) :
    segments (front ++ rest) = front :: segments rest := by
  rcases h with ⟨init, last, rfl, hinit, hlast⟩
  have hfirst : segments (init ++ [last]) = [init ++ [last]] := by
    apply List.splitBy_of_isChain (by simp)
    rw [List.isChain_append]
    refine ⟨isChain_of_continues hinit, List.isChain_singleton _, ?_⟩
    intro byte hbyte other _
    rw [hinit byte (List.mem_of_mem_getLast? hbyte)]
    rfl
  have hcut : segments (init ++ [last] ++ rest) = segments (init ++ [last]) ++ segments rest := by
    apply List.splitBy_append
    intro byte hbyte other _
    rw [List.getLast?_concat, Option.mem_some_iff] at hbyte
    rw [← hbyte, hlast]
    rfl
  rw [hcut, hfirst]
  rfl

/-- Bytes continue to the end, or there is a terminated part in front. -/
theorem continues_or_terminated (bytes : Bytes) :
    (∀ byte ∈ bytes, isLast byte = false) ∨
      ∃ front rest, bytes = front ++ rest ∧ Terminated front := by
  induction bytes with
  | nil => simp
  | cons byte bytes ih =>
    cases hlast : isLast byte with
    | true => exact Or.inr ⟨[byte], bytes, rfl, [], byte, rfl, by simp, hlast⟩
    | false =>
      rcases ih with hcontinues | ⟨front, rest, rfl, hfront⟩
      · left
        intro other hother
        rcases List.mem_cons.mp hother with rfl | hinside
        · exact hlast
        · exact hcontinues other hinside
      · exact Or.inr ⟨byte :: front, rest, rfl, terminated_cons_iff.mpr (Or.inr ⟨hlast, hfront⟩)⟩

/-- A byte string is empty, or without an end, or a segment and a byte string. -/
theorem segment_induction {motive : Bytes → Prop} (finished : motive [])
    (continues : ∀ bytes, bytes ≠ [] → (∀ byte ∈ bytes, isLast byte = false) → motive bytes)
    (terminated : ∀ front rest, Terminated front → motive rest → motive (front ++ rest))
    (bytes : Bytes) : motive bytes := by
  induction hlength : bytes.length using Nat.strongRecOn generalizing bytes with
  | ind length ih =>
    by_cases hne : bytes = []
    · rw [hne]
      exact finished
    · rcases continues_or_terminated bytes with hcontinues | ⟨front, rest, rfl, hfront⟩
      · exact continues bytes hne hcontinues
      · have hpos := hfront.length_pos
        rw [List.length_append] at hlength
        exact terminated front rest hfront (ih rest.length (by omega) rest rfl)

/-! ## What can be told of segments -/

theorem isLast_eq_decide (byte : UInt8) : isLast byte = decide (byte < 0x80) := by
  rw [Bool.eq_iff_iff, isLast_iff_lt, decide_eq_true_eq, UInt8.lt_iff_toNat_lt]
  rfl

/-- Of a terminated byte string, one byte ends a number. -/
theorem Terminated.countP_isLast {bytes : Bytes} (h : Terminated bytes) :
    bytes.countP isLast = 1 := by
  rcases h with ⟨front, last, rfl, hfront, hlast⟩
  have hnone : front.countP isLast = 0 := by
    rw [List.countP_eq_zero]
    intro byte hbyte
    simp [hfront byte hbyte]
  rw [List.countP_append, hnone, List.countP_singleton, hlast]
  rfl

/-- There are as many terminated segments as bytes that end a number. -/
theorem length_eq_countP_flatten {parts : List Bytes} (h : ∀ part ∈ parts, Terminated part) :
    parts.length = parts.flatten.countP isLast := by
  induction parts with
  | nil => rfl
  | cons part parts ih =>
    rw [List.flatten_cons, List.countP_append, (h part (by simp)).countP_isLast,
      ← ih fun other hother => h other (List.mem_cons_of_mem part hother), List.length_cons,
      Nat.add_comm]

/-- All segments are terminated exactly where the last byte ends a number. -/
theorem terminated_segments_iff (bytes : Bytes) :
    (∀ segment ∈ segments bytes, Terminated segment) ↔
      ∀ last, bytes.getLast? = some last → isLast last = true := by
  induction bytes using segment_induction with
  | finished => simp
  | continues bytes hne hcontinues =>
    have hlast : bytes.getLast? = some (bytes.getLast hne) := List.getLast?_eq_some_getLast hne
    have hmore := hcontinues _ (List.getLast_mem hne)
    rw [segments_of_continues hne hcontinues]
    constructor
    · intro h
      rcases h bytes (by simp) with ⟨front, last, rfl, -, hend⟩
      rw [hcontinues last (by simp)] at hend
      simp at hend
    · intro h
      rw [h _ hlast] at hmore
      simp at hmore
  | terminated front rest hfront ih =>
    rw [segments_append hfront, List.forall_mem_cons, ih, List.getLast?_append]
    cases hrest : rest.getLast? with
    | some last => simp [hfront]
    | none =>
      -- nothing is behind, and the last byte is that of the segment
      rcases hfront with ⟨init, last, rfl, hinit, hlast⟩
      simp only [List.getLast?_concat, Option.none_or, Option.some.injEq]
      constructor
      · rintro - other rfl
        exact hlast
      · intro _
        exact ⟨⟨init, last, rfl, hinit, hlast⟩, by simp⟩

/-! ## Sound segments -/

/-- The segment is a value: it has an end, it keeps the limit, and its number is
not refused. -/
def Sound (settings : Settings) (segment : Bytes) : Prop :=
  Terminated segment ∧ settings.Allows segment.length ∧ settings.Fits (magnitude segment)

variable {settings : Settings}

/-- A segment is sound where it is an encoding of some value. -/
theorem sound_iff {segment : Bytes} :
    Sound settings segment ↔ ∃ value, Encodes settings segment value := by
  constructor
  · rintro ⟨hterminated, hallowed, hfits⟩
    exact ⟨_, hterminated, hallowed, hfits, rfl⟩
  · rintro ⟨value, h⟩
    exact ⟨h.terminated, h.allowed, h.fits⟩

/-- Validation passes sound segments, and counts them. -/
theorem walk_sound {parts : List Bytes} (h : ∀ part ∈ parts, Sound settings part) (rest : Bytes)
    (total offset count : ℕ) :
    Validity.walk total ⟨offset, parts.flatten ++ rest, settings, false⟩ count =
      Validity.walk total ⟨offset + parts.flatten.length, rest, settings, false⟩
        (count + parts.length) := by
  induction parts generalizing offset count with
  | nil => rfl
  | cons part parts ih =>
    rcases sound_iff.mp (h part (by simp)) with ⟨value, hpart⟩
    have hdecode : decode settings (part ++ (parts.flatten ++ rest)) =
        .ok (value, parts.flatten ++ rest) := decode_eq_ok_iff.mpr ⟨part, rfl, hpart⟩
    have hbehind := ih (fun other hother => h other (List.mem_cons_of_mem part hother))
      (offset + part.length) (count + 1)
    have hcount : count + 1 + parts.length = count + (parts.length + 1) := by omega
    rw [List.flatten_cons, List.append_assoc, Course.walk_of_ok hdecode, List.length_append,
      List.length_cons, ← Nat.add_assoc, ← hcount, ← hbehind]
    simp [Cursor.skipTo]

/-- A file of sound segments is valid, with one value for each of them. -/
theorem check_of_sound {bytes : Bytes} (h : ∀ part ∈ segments bytes, Sound settings part) :
    Validity.check settings bytes = .ok ⟨bytes.length, bytes.countP isLast, bytes.length⟩ := by
  have hcount := length_eq_countP_flatten fun part hpart => (h part hpart).1
  have hwalk := walk_sound h [] bytes.length 0 0
  rw [flatten_segments] at hcount
  rw [flatten_segments, List.append_nil, Nat.zero_add, Nat.zero_add, hcount] at hwalk
  have hend : Validity.walk bytes.length ⟨bytes.length, [], settings, false⟩
      (bytes.countP isLast) = .ok ⟨bytes.length, bytes.countP isLast, bytes.length⟩ :=
    (Course.finished rfl).walk_eq _ _
  exact hwalk.trans hend

/-! ## The first segment that is not sound -/

/-- Segments are all sound, or there is a first one that is not. -/
theorem sound_or_split (settings : Settings) (parts : List Bytes) :
    (∀ part ∈ parts, Sound settings part) ∨
      ∃ good bad later, parts = good ++ bad :: later ∧ (∀ part ∈ good, Sound settings part) ∧
        ¬ Sound settings bad := by
  induction parts with
  | nil => simp
  | cons part parts ih =>
    by_cases hpart : Sound settings part
    · rcases ih with hall | ⟨good, bad, later, rfl, hgood, hbad⟩
      · exact Or.inl (List.forall_mem_cons.mpr ⟨hpart, hall⟩)
      · exact Or.inr ⟨part :: good, bad, later, rfl, List.forall_mem_cons.mpr ⟨hpart, hgood⟩, hbad⟩
    · exact Or.inr ⟨[], part, parts, rfl, by simp, hpart⟩

/-- A segment is terminated, or it is the last one and all its bytes continue. -/
theorem terminated_or_continues {bytes : Bytes} {good later : List Bytes} {bad : Bytes}
    (h : segments bytes = good ++ bad :: later) :
    Terminated bad ∨ (later = [] ∧ ∀ byte ∈ bad, isLast byte = false) := by
  induction bytes using segment_induction generalizing good with
  | finished => simp at h
  | continues bytes hne hcontinues =>
    rw [segments_of_continues hne hcontinues] at h
    cases good with
    | nil =>
      obtain ⟨rfl, rfl⟩ := List.cons.inj h
      exact Or.inr ⟨rfl, hcontinues⟩
    | cons first good => simp at h
  | terminated front rest hfront ih =>
    rw [segments_append hfront] at h
    cases good with
    | nil => exact Or.inl ((List.cons.inj h).1 ▸ hfront)
    | cons first good => exact ih (List.cons.inj h).2

/-- What decodes at the front of a segment is the segment. -/
theorem encodes_of_decode_segment {segment rest : Bytes} {value : UInt64}
    (hsegment : Terminated segment ∨ ∀ byte ∈ segment, isLast byte = false)
    (h : decode settings segment = .ok (value, rest)) : Encodes settings segment value := by
  rcases decode_eq_ok_iff.mp h with ⟨front, rfl, hfront⟩
  rcases hfront.terminated with ⟨init, last, rfl, -, hlast⟩
  rcases hsegment with hterminated | hcontinues
  · have hpart : init ++ [last] <+: (init ++ [last] ++ rest) ++ [] := by simp
    have hle := hterminated.length_le hpart hlast
    have hrest : rest = [] := by
      rw [← List.length_eq_zero_iff]
      simp only [List.length_append, List.length_singleton] at hle
      omega
    rwa [hrest, List.append_nil]
  · rw [hcontinues last (by simp)] at hlast
    simp at hlast

/-- A segment that is not sound does not decode. If it has an end, the fault is the
same whatever stands behind it. -/
theorem exists_fault_of_not_sound {segment : Bytes} (h : ¬ Sound settings segment)
    (hsegment : Terminated segment ∨ ∀ byte ∈ segment, isLast byte = false) :
    ∃ fault, decode settings segment = .error fault ∧
      (Terminated segment → ∀ rest, decode settings (segment ++ rest) = .error fault) := by
  cases hdecode : decode settings segment with
  | ok result =>
    have hencodes := encodes_of_decode_segment hsegment hdecode
    exact absurd (sound_iff.mpr ⟨_, hencodes⟩) h
  | error fault =>
    refine ⟨fault, rfl, ?_⟩
    rintro ⟨front, last, rfl, -, hlast⟩ rest
    -- more bytes cannot help, since the last one did not continue
    apply decode_append_of_decided hdecode
    rw [Bool.eq_false_iff, ne_eq, needsMore_iff_unfinished hdecode]
    intro hpassed
    rw [hpassed.continues last (by simp)] at hlast
    simp at hlast

/-- **The first unsound segment** decides what validation finds. -/
theorem check_of_not_sound {bytes : Bytes} {good later : List Bytes} {bad : Bytes}
    (hcut : segments bytes = good ++ bad :: later) (hgood : ∀ part ∈ good, Sound settings part)
    (hbad : ¬ Sound settings bad) :
    ∃ fault, decode settings bad = .error fault ∧
      Validity.check settings bytes =
        .error ⟨good.flatten.length, fault.rebase good.flatten.length⟩ := by
  have hkind := terminated_or_continues hcut
  have hne : bad ≠ [] := by
    rintro rfl
    have hmem : [] ∈ segments bytes := by
      rw [hcut]
      simp
    exact List.nil_notMem_splitBy _ bytes hmem
  have hbytes : bytes = good.flatten ++ (bad ++ later.flatten) := by
    rw [← flatten_segments bytes, hcut]
    simp
  rcases exists_fault_of_not_sound hbad (hkind.imp_right And.right) with ⟨fault, hfault, hmore⟩
  have hdecode : decode settings (bad ++ later.flatten) = .error fault := by
    rcases hkind with hterminated | ⟨rfl, -⟩
    · exact hmore hterminated later.flatten
    · rwa [List.flatten_nil, List.append_nil]
  have hwalk := walk_sound hgood (bad ++ later.flatten) bytes.length 0 0
  rw [← hbytes, Nat.zero_add, Nat.zero_add] at hwalk
  refine ⟨fault, hfault, hwalk.trans ?_⟩
  exact Course.walk_of_error (by simp [hne]) hdecode _ _

/-! ## Places and lines -/

/-- Terminated parts end behind the last byte that ends a number. -/
theorem isGreatest_length_flatten {parts : List Bytes} (h : ∀ part ∈ parts, Terminated part) :
    IsGreatest {place | place = 0 ∨
        ∃ i byte, parts.flatten[i]? = some byte ∧ byte < 0x80 ∧ place = i + 1}
      parts.flatten.length := by
  constructor
  · rcases List.eq_nil_or_concat parts with rfl | ⟨front, part, rfl⟩
    · exact Or.inl rfl
    · rcases h part (by simp) with ⟨init, last, rfl, -, hlast⟩
      rw [isLast_eq_decide, decide_eq_true_eq] at hlast
      refine Or.inr ⟨(front.flatten ++ init).length, last, ?_, hlast, by simp; omega⟩
      have hflatten : (front.concat (init ++ [last])).flatten = (front.flatten ++ init) ++ [last] := by
        simp
      rw [hflatten, List.getElem?_concat_length]
  · rintro place (rfl | ⟨i, byte, hbyte, -, rfl⟩)
    · exact Nat.zero_le _
    · exact (List.getElem?_eq_some_iff.mp hbyte).1

/-- The report, spelled out. -/
theorem Totals.report_eq (totals : Totals) :
    totals.report =
      "✓ Stream: " ++ (totals.bytes.repr ++ " byte" ++
        (if totals.bytes = 1 then "" else "s")) ++ "\n" ++
      "✓ Values: " ++ (totals.values.repr ++ " value" ++
        (if totals.values = 1 then "" else "s")) ++ " decoded\n" ++
      "✓ Terminated: last value ends at offset " ++
        ("0x" ++ String.ofList ((Nat.toDigits 16 totals.stop).leftpad 4 '0')) ++ "\n" := by
  have hbytes : Text.counted totals.bytes "byte" =
      totals.bytes.repr ++ " byte" ++ (if totals.bytes = 1 then "" else "s") :=
    Text.counted_eq totals.bytes "byte"
  have hvalues : Text.counted totals.values "value" =
      totals.values.repr ++ " value" ++ (if totals.values = 1 then "" else "s") :=
    Text.counted_eq totals.values "value"
  unfold Totals.report
  rw [hbytes, hvalues, Text.position_eq]

/-- The line on a fault of decoding says where the value starts. -/
theorem exists_line_eq {segment : Bytes} {fault : Fault}
    (h : decode settings segment = .error fault) (start base : ℕ) :
    ∃ told, (⟨start, fault.rebase base⟩ : Finding).line =
      "✗ Error: value at offset " ++ Text.position start ++ " " ++ told := by
  have hhead : "✗ Error: value at offset " = "✗ Error: " ++ "value at offset " := rfl
  have htruncated : " is truncated (" = " " ++ "is truncated (" := rfl
  have hoverflows : " overflows 64 bits at byte " = " " ++ "overflows 64 bits at byte " := rfl
  have hexceeds : " exceeds the " = " " ++ "exceeds the " := rfl
  rcases decode_error_position h with rfl | ⟨index, rfl, -⟩ | ⟨limit, rfl, -⟩
  · refine ⟨"is truncated (" ++ (Text.counted segment.length "byte" ++
      " without a terminator)"), ?_⟩
    simp only [Finding.line, Finding.diagnostic, Fault.rebase, hhead, htruncated,
      String.append_assoc]
  · refine ⟨"overflows 64 bits at byte " ++ Text.position (index + base), ?_⟩
    simp only [Finding.line, Finding.diagnostic, Fault.rebase, hhead, hoverflows,
      String.append_assoc]
  · refine ⟨"exceeds the " ++ (Text.decimal limit ++ "-byte limit"), ?_⟩
    simp only [Finding.line, Finding.diagnostic, Fault.rebase, hhead, hexceeds,
      String.append_assoc]

/-! ## The closed form -/

theorem exists_check_eq_ok_iff (settings : Settings) (bytes : Bytes) :
    (∃ totals, Validity.check settings bytes = .ok totals) ↔
      ∀ segment ∈ segments bytes, Sound settings segment := by
  constructor
  · rintro ⟨totals, hcheck⟩
    rcases sound_or_split settings (segments bytes) with hall | ⟨good, bad, later, hcut, hgood, hbad⟩
    · exact hall
    · rcases check_of_not_sound hcut hgood hbad with ⟨fault, -, hfault⟩
      rw [hcheck] at hfault
      simp at hfault
  · intro hall
    exact ⟨_, check_of_sound hall⟩

/-- **Validity by segments.** A file is valid exactly where each of its segments has
an end, keeps the limit, and writes a number that is not refused. So where numbers are
wrapped and there is no limit, nothing matters but the last byte. Of a valid file the
report says how many bytes it has, how many of them end a number, and that the last
value ends with the file. Of any other file the line names the place behind the last
byte that ends a number before the first segment that is not sound, and what stands
behind this segment has no influence on it. -/
theorem check_by_segments (settings : Settings) (bytes : Bytes) :
    ((∃ totals, Validity.check settings bytes = .ok totals) ↔
      ∀ segment ∈ segments bytes, Terminated segment ∧
        (∀ limit, settings.maxLength = some limit → segment.length ≤ limit) ∧
        (settings.overflow = .reject → magnitude segment < 2 ^ 64)) ∧
    (settings.overflow = .wrap → settings.maxLength = none →
      ((∃ totals, Validity.check settings bytes = .ok totals) ↔
        bytes = [] ∨ ∃ last, bytes.getLast? = some last ∧ last < 0x80)) ∧
    (∀ totals, Validity.check settings bytes = .ok totals →
      totals = ⟨bytes.length, bytes.countP (· < 0x80), bytes.length⟩ ∧
      totals.report =
        "✓ Stream: " ++ (bytes.length.repr ++ " byte" ++
          (if bytes.length = 1 then "" else "s")) ++ "\n" ++
        "✓ Values: " ++ ((bytes.countP (· < 0x80)).repr ++ " value" ++
          (if bytes.countP (· < 0x80) = 1 then "" else "s")) ++ " decoded\n" ++
        "✓ Terminated: last value ends at offset " ++
          ("0x" ++ String.ofList ((Nat.toDigits 16 bytes.length).leftpad 4 '0')) ++ "\n") ∧
    (∀ finding, Validity.check settings bytes = .error finding →
      ∃ good bad later, segments bytes = good ++ bad :: later ∧
        (∀ segment ∈ good, Sound settings segment) ∧ ¬ Sound settings bad ∧
        IsGreatest {place | place = 0 ∨
          ∃ i byte, good.flatten[i]? = some byte ∧ byte < 0x80 ∧ place = i + 1} finding.start ∧
        (∃ told, finding.line = "✗ Error: value at offset " ++
          ("0x" ++ String.ofList ((Nat.toDigits 16 finding.start).leftpad 4 '0')) ++ " " ++
          told) ∧
        ∀ other others, segments other = good ++ bad :: others →
          Validity.check settings other = .error finding) := by
  refine ⟨exists_check_eq_ok_iff settings bytes, ?_, ?_, ?_⟩
  · intro hwrap hfree
    have hsound (segment : Bytes) : Sound settings segment ↔ Terminated segment := by
      simp [Sound, Settings.Allows, Settings.Fits, hwrap, hfree]
    simp only [exists_check_eq_ok_iff, hsound, terminated_segments_iff, isLast_eq_decide,
      decide_eq_true_eq]
    cases hlast : bytes.getLast? with
    | none => simp [List.getLast?_eq_none_iff.mp hlast]
    | some last =>
      have hne : bytes ≠ [] := by
        rintro rfl
        simp at hlast
      simp [hne]
  · intro totals hcheck
    have hall := (exists_check_eq_ok_iff settings bytes).mp ⟨totals, hcheck⟩
    rw [check_of_sound hall, funext isLast_eq_decide] at hcheck
    obtain rfl := Except.ok.inj hcheck
    exact ⟨rfl, Totals.report_eq _⟩
  · intro finding hcheck
    rcases sound_or_split settings (segments bytes) with hall | ⟨good, bad, later, hcut, hgood, hbad⟩
    · rw [check_of_sound hall] at hcheck
      simp at hcheck
    · rcases check_of_not_sound hcut hgood hbad with ⟨fault, hfault, hfinding⟩
      rw [hfinding] at hcheck
      obtain rfl := Except.error.inj hcheck
      refine ⟨good, bad, later, hcut, hgood, hbad,
        isGreatest_length_flatten fun segment hsegment => (hgood segment hsegment).1,
        exists_line_eq hfault _ _, ?_⟩
      -- the fault is that of the segment, in every file that has it there
      intro other others hother
      rcases check_of_not_sound hother hgood hbad with ⟨cause, hcause, hsame⟩
      rw [hfault] at hcause
      rw [hsame, Except.error.inj hcause]

/-- The second of three segments is too long, and the third one has no end. What is
found does not change when the third one is another. -/
theorem check_by_segments_second :
    segments [0x05, 0x80, 0x80, 0x01, 0xFF] = [[0x05], [0x80, 0x80, 0x01], [0xFF]] ∧
      segments [0x05, 0x80, 0x80, 0x01, 0x00] = [[0x05], [0x80, 0x80, 0x01], [0x00]] ∧
      Validity.check ⟨.reject, some 2⟩ [0x05, 0x80, 0x80, 0x01, 0xFF] =
        .error ⟨1, .tooLong 3 2⟩ ∧
      (∃ told, (⟨1, .tooLong 3 2⟩ : Finding).line =
        "✗ Error: value at offset 0x0001 " ++ told) ∧
      (∃ good bad, ∀ other others, segments other = good ++ bad :: others →
        Validity.check ⟨.reject, some 2⟩ other = .error ⟨1, .tooLong 3 2⟩) ∧
      ((∃ totals, Validity.check ⟨.wrap, none⟩ [0x05, 0x80, 0x80, 0x01, 0xFF] = .ok totals) ↔
        ([0x05, 0x80, 0x80, 0x01, 0xFF] : Bytes) = [] ∨ ∃ last,
          ([0x05, 0x80, 0x80, 0x01, 0xFF] : Bytes).getLast? = some last ∧ last < 0x80) := by
  have hcheck : Validity.check ⟨.reject, some 2⟩ [0x05, 0x80, 0x80, 0x01, 0xFF] =
      .error ⟨1, .tooLong 3 2⟩ := by
    decide +kernel
  rcases check_by_segments ⟨.reject, some 2⟩ [0x05, 0x80, 0x80, 0x01, 0xFF] with ⟨-, -, -, hfinding⟩
  rcases hfinding _ hcheck with ⟨good, bad, later, -, -, -, -, hline, hsame⟩
  exact ⟨by decide, by decide, hcheck, hline, ⟨good, bad, hsame⟩,
    (check_by_segments ⟨.wrap, none⟩ _).2.1 rfl rfl⟩

end Base128

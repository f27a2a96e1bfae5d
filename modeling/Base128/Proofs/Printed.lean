import Mathlib.Data.List.Basic
import Base128.Proofs.Dressed
import Base128.Readout
import Base128.Text.Lines

/-! # Readouts read back

What a readout says can be taken from its text alone: three lines, each with a
label in front of what it tells.

* `Text.linesOf` — a text is taken apart at its line ends.
* `Text.after?`, `Text.leadingNumber` — a line without its label, and the number
  that it starts with.
* `Readout.Printed`, `Readout.reread?` — what a readout of one value tells.
* `Readout.reread?_front` — it tells what was put into it.
-/

namespace Base128

namespace Text

/-! ## Lines -/

/-- The lines of a text, without their ends. What stands behind the last line
end is no line. -/
def linesOf (text : String) : List String :=
  (text.toList.splitOn '\n').dropLast.map String.ofList

theorem toList_lines (texts : List String) :
    (lines texts).toList = ['\n'].intercalate (texts.map String.toList ++ [[]]) := by
  induction texts with
  | nil => rfl
  | cons text texts ih =>
    have hne : texts.map String.toList ++ [[]] ≠ [] := by simp
    rw [lines_cons, String.toList_append, String.toList_append, ih, List.map_cons,
      List.cons_append, List.intercalate_cons_of_ne_nil hne]
    rfl

/-- Lines without line ends in them are told apart. -/
theorem linesOf_lines {texts : List String} (h : ∀ text ∈ texts, '\n' ∉ text.toList) :
    linesOf (lines texts) = texts := by
  have hpieces : ∀ piece ∈ texts.map String.toList ++ [[]], '\n' ∉ piece := by
    intro piece hpiece
    rcases List.mem_append.mp hpiece with htext | hend
    · rcases List.mem_map.mp htext with ⟨text, hmem, rfl⟩
      exact h text hmem
    · rw [List.mem_singleton.mp hend]
      exact List.not_mem_nil
  rw [linesOf, toList_lines, List.splitOn_intercalate '\n' hpieces (by simp),
    List.dropLast_concat, List.map_map]
  simp [Function.comp_def]

/-! ## What a line tells -/

/-- What stands behind `label` at the front of a line. -/
def after? (label line : String) : Option String :=
  (label.toList.isPrefixOf? line.toList).map String.ofList

@[simp] theorem after?_append (label text : String) :
    after? label (label ++ text) = some text := by
  have hprefix : label.toList.isPrefixOf? (label ++ text).toList = some text.toList := by
    rw [List.isPrefixOf?_eq_some_iff_append_eq, String.toList_append]
  rw [after?, hprefix, Option.map_some, String.ofList_toList]

/-- The number in decimal digits that a text starts with. -/
def leadingNumber (text : String) : ℕ :=
  Nat.ofDigitChars 10 (text.toList.takeWhile Char.isDigit) 0

/-- A number is read up to what is no digit. -/
theorem leadingNumber_decimal (n : ℕ) {text : String}
    (h : text.toList.takeWhile Char.isDigit = []) : leadingNumber (decimal n ++ text) = n := by
  have hdigits : ∀ c ∈ Nat.toDigits 10 n, c.isDigit = true := by
    intro c hc
    exact Nat.isDigit_of_mem_toDigits (by decide) (by decide) hc
  rw [leadingNumber, decimal, String.toList_append, Nat.toList_repr,
    List.takeWhile_append_of_pos hdigits, h, List.append_nil, Nat.ofDigitChars_ten_toDigits]

/-! ## Numbers stay on one line -/

theorem exists_digitChar_of_mem_toDigits {base n : ℕ} (hbase : 1 < base) {c : Char}
    (h : c ∈ Nat.toDigits base n) : ∃ d < base, c = Nat.digitChar d := by
  induction n using Nat.strongRecOn with
  | ind n ih =>
    rw [Nat.toDigits_eq_if hbase] at h
    by_cases hlt : n < base
    · rw [if_pos hlt] at h
      exact ⟨n, hlt, List.mem_singleton.mp h⟩
    · rw [if_neg hlt] at h
      rcases List.mem_append.mp h with hfront | hlast
      · exact ih (n / base) (Nat.div_lt_self (by omega) hbase) hfront
      · exact ⟨n % base, Nat.mod_lt n (by omega), List.mem_singleton.mp hlast⟩

theorem isDigit_of_mem_toDigits {base n : ℕ} (hbase : 1 < base) (hle : base ≤ 16) {c : Char}
    (h : c ∈ Nat.toDigits base n) : Hex.IsDigit c := by
  obtain ⟨d, hd, rfl⟩ := exists_digitChar_of_mem_toDigits hbase h
  exact ⟨⟨d, hd.trans_le hle⟩, rfl⟩

/-- Written digits hold no line end. -/
theorem newline_notMem_of_isDigit {text : List Char} (h : ∀ c ∈ text, Hex.IsDigit c) :
    '\n' ∉ text := by
  intro hmem
  have hnot : ('\n' == '\n') = false := (h '\n' hmem).eq_false (p := (· == '\n')) (by decide)
  simp at hnot

theorem newline_notMem_decimal (n : ℕ) : '\n' ∉ (decimal n).toList := by
  rw [decimal, Nat.toList_repr]
  apply newline_notMem_of_isDigit
  intro c hc
  exact isDigit_of_mem_toDigits (by decide) (by decide) hc

theorem newline_notMem_hexadecimal (n : ℕ) : '\n' ∉ (hexadecimal n).toList := by
  have hdigits : '\n' ∉ Nat.toDigits 16 n := by
    apply newline_notMem_of_isDigit
    intro c hc
    exact isDigit_of_mem_toDigits (by decide) (by decide) hc
  simp [hexadecimal, hdigits]

theorem newline_notMem_counted (count : ℕ) {noun : String} (h : '\n' ∉ noun.toList) :
    '\n' ∉ (counted count noun).toList := by
  unfold counted pluralEnding
  by_cases hone : count = 1
  · simp [hone, h, newline_notMem_decimal]
  · simp [hone, h, newline_notMem_decimal]

end Text

namespace Readout

/-! ## Readouts of one value -/

/-- What a readout of one value tells. -/
structure Printed where
  value : ℕ
  /-- The number of bytes that the value takes up. -/
  consumed : ℕ
  /-- What is printed for the bytes behind the value. -/
  remainder : String
deriving DecidableEq, Repr

/-- What a text tells, if it is a readout of one value. -/
def reread? (text : String) : Option Printed :=
  match Text.linesOf text with
  | [first, second, third] =>
    match Text.after? "value:     " first, Text.after? "consumed:  " second,
      Text.after? "remainder: " third with
    | some value, some consumed, some remainder =>
      some ⟨Text.leadingNumber value, Text.leadingNumber consumed, remainder⟩
    | _, _, _ => none
  | _ => none

/-- What is printed for the bytes behind a value. -/
def leftOver (rest : Bytes) : String := if rest.isEmpty then "(empty)" else Hex.encode rest

theorem newline_notMem_leftOver (rest : Bytes) : '\n' ∉ (leftOver rest).toList := by
  unfold leftOver
  by_cases hempty : rest.isEmpty
  · rw [if_pos hempty]
    decide
  · rw [if_neg hempty]
    apply Text.newline_notMem_of_isDigit
    intro c hc
    exact Hex.isDigit_of_mem_encode hc

/-- Digits are never taken for the note that there is nothing. -/
theorem leftOver_eq_empty_iff {rest : Bytes} : leftOver rest = "(empty)" ↔ rest = [] := by
  constructor
  · intro h
    by_contra hne
    rw [leftOver, if_neg (by simp [hne])] at h
    have hmem : '(' ∈ (Hex.encode rest).toList := by
      rw [h]
      decide
    have hdigit : Hex.IsDigit '(' := Hex.isDigit_of_mem_encode hmem
    have hnot : ('(' == '(') = false := hdigit.eq_false (p := (· == '(')) (by decide)
    simp at hnot
  · rintro rfl
    rfl

/-- Bytes that are left over are printed as an argument that stands for them. -/
theorem decode_leftOver {rest : Bytes} (hne : rest ≠ []) :
    HexArgument.decode (leftOver rest) = .ok rest := by
  rw [leftOver, if_neg (by simp [hne]), HexArgument.decode_encode]

/-- The lines of a readout. -/
def frontLines (value : UInt64) (consumed : ℕ) (rest : Bytes) : List String :=
  ["value:     " ++ (Text.decimal value.toNat ++ (" (" ++ Text.hexadecimal value.toNat ++ ")")),
    "consumed:  " ++ Text.counted consumed "byte", "remainder: " ++ leftOver rest]

theorem front_eq_lines (value : UInt64) (consumed : ℕ) (rest : Bytes) :
    front value consumed rest = Text.lines (frontLines value consumed rest) := by
  have hclose : ")\n" = ")" ++ "\n" := by decide
  unfold front frontLines
  rw [hclose, ← leftOver, Text.lines_cons, Text.lines_cons, Text.lines_cons, Text.lines_nil,
    String.append_empty]
  simp only [String.append_assoc]

theorem newline_notMem_frontLines (value : UInt64) (consumed : ℕ) (rest : Bytes) :
    ∀ line ∈ frontLines value consumed rest, '\n' ∉ line.toList := by
  intro line hline
  simp only [frontLines, List.mem_cons, List.not_mem_nil, or_false] at hline
  rcases hline with rfl | rfl | rfl
  · simp [Text.newline_notMem_decimal, Text.newline_notMem_hexadecimal]
  · have hcounted : '\n' ∉ (Text.counted consumed "byte").toList :=
      Text.newline_notMem_counted _ (by decide)
    simp [hcounted]
  · simp [newline_notMem_leftOver]

/-- **A readout tells what was put into it.** -/
theorem reread?_front (value : UInt64) (consumed : ℕ) (rest : Bytes) :
    reread? (front value consumed rest) = some ⟨value.toNat, consumed, leftOver rest⟩ := by
  have hcounted : Text.leadingNumber (Text.counted consumed "byte") = consumed := by
    rw [Text.counted, String.append_assoc, String.append_assoc]
    apply Text.leadingNumber_decimal
    simp
  have hvalue : Text.leadingNumber (Text.decimal value.toNat ++
      (" (" ++ Text.hexadecimal value.toNat ++ ")")) = value.toNat := by
    apply Text.leadingNumber_decimal
    simp
  unfold reread?
  rw [front_eq_lines, Text.linesOf_lines (newline_notMem_frontLines value consumed rest)]
  simp only [frontLines, Text.after?_append, hvalue, hcounted]

end Readout

end Base128

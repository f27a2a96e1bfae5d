import Base128.Proofs.Printed

/-! # Numbers read back

A number stands in a text between other things: behind a label, with zeros in front where
a column is to be filled, and in one of two bases. Nothing marks its end but that there is
**no further digit**, so this is what a reader has to go by.

* `Text.digitValue`, `Text.numeral` — what digits stand for.
* `Text.numeral_toDigits`, `Text.numeral_zeros` — digits stand for the number that they
  were written for, and zeros in front change nothing.
* `Text.filled` — the form that decimal, hexadecimal and filled up numbers share.
* `Text.numberFront?`, `Text.numberBehind?` — the number at the front of a text, or behind
  a label, with what stands behind the number.
* `Text.numberBehind?_append` — they find what was written there.
-/

namespace Base128.Text

variable {base n zeros : ℕ} {rest : String}

/-! ## What digits stand for -/

/-- The value of a digit: its place among the digits in lower case. What is no such digit
has a value that no digit has. -/
def digitValue (c : Char) : ℕ := Hex.digitChars.idxOf c

/-- The character is a digit of `base`. -/
def isDigitOf (base : ℕ) (c : Char) : Bool := digitValue c < base

/-- The number that a row of digits stands for, the highest one first. -/
def numeral (base : ℕ) (digits : List Char) : ℕ :=
  digits.foldl (fun number c => base * number + digitValue c) 0

theorem digitValue_digitChar {d : ℕ} (h : d < 16) : digitValue (Nat.digitChar d) = d := by
  have hall : ∀ d : Fin 16, digitValue (Nat.digitChar d) = d := by decide
  exact hall ⟨d, h⟩

theorem isDigitOf_of_mem_toDigits (hbase : 1 < base) (hle : base ≤ 16) {c : Char}
    (h : c ∈ Nat.toDigits base n) : isDigitOf base c = true := by
  obtain ⟨d, hd, rfl⟩ := exists_digitChar_of_mem_toDigits hbase h
  simpa [isDigitOf, digitValue_digitChar (hd.trans_le hle)] using hd

/-- One more digit at the end. -/
theorem numeral_concat (digits : List Char) (c : Char) :
    numeral base (digits ++ [c]) = base * numeral base digits + digitValue c := by
  simp [numeral]

/-- **Digits stand for the number that they were written for.** -/
theorem numeral_toDigits (hbase : 1 < base) (hle : base ≤ 16) (n : ℕ) :
    numeral base (Nat.toDigits base n) = n := by
  -- the last digit is the remainder, and the others are those of the quotient
  induction n using Nat.strongRecOn with
  | ind n ih =>
    rw [Nat.toDigits_eq_if hbase]
    by_cases hlt : n < base
    · rw [if_pos hlt, ← List.nil_append [n.digitChar], numeral_concat,
        digitValue_digitChar (hlt.trans_le hle)]
      simp [numeral]
    · have hquotient : n / base < n := Nat.div_lt_self (by omega) hbase
      have hremainder : n % base < base := Nat.mod_lt n (by omega)
      rw [if_neg hlt, numeral_concat, ih (n / base) hquotient,
        digitValue_digitChar (hremainder.trans_le hle), Nat.div_add_mod]

/-- Zeros in front change nothing. -/
theorem numeral_zeros (base zeros : ℕ) (digits : List Char) :
    numeral base (List.replicate zeros '0' ++ digits) = numeral base digits := by
  have hzero : digitValue '0' = 0 := by decide
  induction zeros with
  | zero => rfl
  | succ zeros ih =>
    rw [List.replicate_succ, List.cons_append, ← ih, numeral, List.foldl_cons, hzero, numeral,
      Nat.mul_zero]

/-! ## How numbers are written -/

/-- The digits of a number, with zeros in front. -/
def filled (base zeros n : ℕ) : String :=
  String.ofList (List.replicate zeros '0' ++ Nat.toDigits base n)

theorem decimal_eq_filled (n : ℕ) : decimal n = filled 10 0 n := rfl

theorem hexadecimal_eq_filled (n : ℕ) : hexadecimal n = "0x" ++ filled 16 0 n := rfl

theorem position_eq_filled (n : ℕ) :
    position n = "0x" ++ filled 16 (4 - (Nat.toDigits 16 n).length) n := rfl

theorem isDigitOf_of_mem_filled (hbase : 1 < base) (hle : base ≤ 16) {c : Char}
    (h : c ∈ (filled base zeros n).toList) : isDigitOf base c = true := by
  rw [filled, String.toList_ofList] at h
  rcases List.mem_append.mp h with hzero | hdigit
  · have hvalue : digitValue '0' = 0 := by decide
    rw [List.eq_of_mem_replicate hzero, isDigitOf, hvalue]
    exact decide_eq_true (by omega)
  · exact isDigitOf_of_mem_toDigits hbase hle hdigit

theorem newline_notMem_filled (hbase : 1 < base) (hle : base ≤ 16) (zeros n : ℕ) :
    '\n' ∉ (filled base zeros n).toList := by
  intro hmem
  have hdigit := isDigitOf_of_mem_filled hbase hle hmem
  have hvalue : digitValue '\n' = 22 := by decide
  rw [isDigitOf, decide_eq_true_eq, hvalue] at hdigit
  omega

theorem newline_notMem_position (n : ℕ) : '\n' ∉ (position n).toList := by
  have hdigits (zeros : ℕ) : '\n' ∉ (filled 16 zeros n).toList :=
    newline_notMem_filled (by decide) le_rfl zeros n
  simp [position_eq_filled, hdigits]

/-! ## How numbers are read -/

/-- The number at the front of a text, which goes as far as there are digits, and what
stands behind it. -/
def numberFront? (base : ℕ) (text : String) : Option (ℕ × String) :=
  match text.toList.takeWhile (isDigitOf base) with
  | [] => none
  | digit :: digits =>
    some (numeral base (digit :: digits),
      String.ofList (text.toList.dropWhile (isDigitOf base)))

/-- The number behind `label` at the front of a text, and what stands behind it. -/
def numberBehind? (base : ℕ) (label text : String) : Option (ℕ × String) :=
  (after? label text).bind (numberFront? base)

/-- No number goes on at the front of this text. -/
def EndsNumber (base : ℕ) (rest : String) : Prop :=
  rest.toList.takeWhile (isDigitOf base) = []

instance (base : ℕ) (rest : String) : Decidable (EndsNumber base rest) :=
  inferInstanceAs (Decidable (_ = _))

theorem EndsNumber.dropWhile_eq (h : EndsNumber base rest) :
    rest.toList.dropWhile (isDigitOf base) = rest.toList := by
  have hsplit := List.takeWhile_append_dropWhile (p := isDigitOf base) (l := rest.toList)
  rwa [h, List.nil_append] at hsplit

/-- A text that starts with some other character goes on with no number. -/
theorem endsNumber_append {label : String}
    (h : label.toList.head?.any (fun c => !isDigitOf base c) = true) (rest : String) :
    EndsNumber base (label ++ rest) := by
  rw [EndsNumber, String.toList_append]
  cases hlabel : label.toList with
  | nil => simp [hlabel] at h
  | cons c text =>
    have hno : isDigitOf base c = false := by simpa [hlabel] using h
    rw [List.cons_append, List.takeWhile_cons_of_neg (by simp [hno])]

theorem numberFront?_append (hbase : 1 < base) (hle : base ≤ 16) (zeros n : ℕ)
    (hrest : EndsNumber base rest) :
    numberFront? base (filled base zeros n ++ rest) = some (n, rest) := by
  have hdigits : ∀ c ∈ (filled base zeros n).toList, isDigitOf base c = true := by
    intro c hc
    exact isDigitOf_of_mem_filled hbase hle hc
  have hnumber : numeral base (filled base zeros n).toList = n := by
    rw [filled, String.toList_ofList, numeral_zeros, numeral_toDigits hbase hle]
  have hne : (filled base zeros n).toList ≠ [] := by
    simp [filled, Nat.toDigits_ne_nil]
  unfold numberFront?
  rw [String.toList_append, List.takeWhile_append_of_pos hdigits,
    List.dropWhile_append_of_pos hdigits, hrest, hrest.dropWhile_eq, List.append_nil,
    String.ofList_toList]
  split
  case h_1 hempty => exact absurd hempty hne
  case h_2 digit digits hsplit => rw [← hsplit, hnumber]

/-- **What is written behind a label is found there.** -/
theorem numberBehind?_append (hbase : 1 < base) (hle : base ≤ 16) (label : String)
    (zeros n : ℕ) (hrest : EndsNumber base rest) :
    numberBehind? base label (label ++ (filled base zeros n ++ rest)) = some (n, rest) := by
  rw [numberBehind?, after?_append, Option.bind_some, numberFront?_append hbase hle zeros n hrest]

/-! ## Filling a column -/

/-- So many blanks. -/
def blanksOf (count : ℕ) : String := String.ofList (List.replicate count ' ')

/-- A text without the blanks in front of it. -/
def unindented (text : String) : String := String.ofList (text.toList.dropWhile (· = ' '))

theorem unindented_blanksOf_append (count : ℕ) (text : String) :
    unindented (blanksOf count ++ text) = unindented text := by
  have hblank : ∀ c ∈ List.replicate count ' ', decide (c = ' ') = true := by
    intro c hc
    exact decide_eq_true (List.eq_of_mem_replicate hc)
  rw [unindented, blanksOf, String.toList_append, String.toList_ofList,
    List.dropWhile_append_of_pos hblank, unindented]

/-- Blanks end a number, and so does what stands behind them. -/
theorem endsNumber_blanksOf_append (count : ℕ) (h : EndsNumber base rest) (hle : base ≤ 16) :
    EndsNumber base (blanksOf count ++ rest) := by
  have hblank : isDigitOf base ' ' = false := by
    have hvalue : digitValue ' ' = 22 := by decide
    rw [isDigitOf, hvalue]
    exact decide_eq_false (by omega)
  cases count with
  | zero => exact h
  | succ count =>
    apply endsNumber_append
    simp [blanksOf, List.replicate_succ, hblank]

end Base128.Text

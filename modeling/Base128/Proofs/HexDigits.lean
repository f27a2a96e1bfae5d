import Base128.Hex
import Base128.Proofs.Canonical

/-! # What is hexadecimal

A text is taken apart into the bytes of its encoding, and those are read two by two. What
comes of that is said here of the **characters**: the text has to be digits in either
case, an even number of them, and nothing else. Where it is not, a fault names the first
byte that is to blame.

* `Hex.IsDigit` — the sixteen digits, as they are written.
* `Hex.digitChars`, `Hex.IsDigitByte` — digits in either case, and as bytes of text.
* `Hex.digit?_eq_none_iff` — nothing else is read as a digit.
* `Hex.map_digit?_utf8_iff` — bytes that are read as digits are **characters** that are
  digits: no byte of a longer character is taken for one.
* `Hex.decode_eq_ok_iff_lower` — what is read, in terms of what is written.
* `Hex.decode_eq_error_cases` — and what is blamed otherwise.
-/

namespace Base128.Hex

/-! ## Digits as they are written -/

/-- A digit as it is written, in lower case. -/
def IsDigit (c : Char) : Prop := ∃ d : Fin 16, c = Nat.digitChar d

/-- Nothing that holds of no written digit is found among them. -/
theorem IsDigit.eq_false {p : Char → Bool} (h : ∀ d : Fin 16, p (Nat.digitChar d) = false)
    {c : Char} (hc : IsDigit c) : p c = false := by
  rcases hc with ⟨d, rfl⟩
  exact h d

theorem isDigit_of_mem_digitsOf {byte : UInt8} {c : Char} (h : c ∈ digitsOf byte) : IsDigit c := by
  have hlt := byte.toNat_lt
  unfold digitsOf at h
  rcases List.mem_pair.mp h with rfl | rfl
  · exact ⟨⟨byte.toNat / 16, by omega⟩, rfl⟩
  · exact ⟨⟨byte.toNat % 16, by omega⟩, rfl⟩

theorem isDigit_of_mem_encode {bytes : Bytes} {c : Char} (h : c ∈ (encode bytes).toList) :
    IsDigit c := by
  rw [encode, String.toList_ofList] at h
  rcases List.mem_flatMap.mp h with ⟨byte, -, hc⟩
  exact isDigit_of_mem_digitsOf hc

/-! ## Digits as they are read -/

/-- The digits in either case. -/
def digitChars : List Char :=
  ['0', '1', '2', '3', '4', '5', '6', '7', '8', '9', 'a', 'b', 'c', 'd', 'e', 'f',
    'A', 'B', 'C', 'D', 'E', 'F']

/-- The byte is the code of a digit. -/
def IsDigitByte (byte : UInt8) : Prop := ∃ c ∈ digitChars, c.toNat = byte.toNat

theorem any_digitChars_iff (byte : UInt8) :
    digitChars.any (fun c => c.toNat == byte.toNat) = true ↔ IsDigitByte byte := by
  simp [IsDigitByte]

instance : DecidablePred IsDigitByte := fun byte => decidable_of_iff _ (any_digitChars_iff byte)

/-- Digits are read, and nothing else is. -/
theorem digit?_eq_none_iff (byte : UInt8) : digit? byte = none ↔ ¬ IsDigitByte byte := by
  revert byte
  apply forall_byte
  decide +kernel

theorem isDigitByte_of_digit? {byte value : UInt8} (h : digit? byte = some value) :
    IsDigitByte byte := by
  by_contra hno
  rw [(digit?_eq_none_iff byte).mpr hno] at h
  simp at h

/-- A digit stands for half a byte. -/
theorem toNat_lt_of_digit? {byte value : UInt8} (h : digit? byte = some value) :
    value.toNat < 16 := by
  have hall : ∀ byte : UInt8, (digit? byte).all (fun value => value.toNat < 16) = true := by
    apply forall_byte
    decide +kernel
  have hdigit := hall byte
  rwa [h, Option.all_some, decide_eq_true_eq] at hdigit

/-- Two digits are the digits of a byte if they are its halves. -/
theorem pair_eq_iff {high low : UInt8} (hhigh : high.toNat < 16) (hlow : low.toNat < 16)
    (byte : UInt8) : high * 16 + low = byte ↔ high = byte / 16 ∧ low = byte % 16 := by
  have hbyte := byte.toNat_lt
  simp only [← UInt8.toNat_inj, UInt8.toNat_add, UInt8.toNat_mul, UInt8.toNat_div,
    UInt8.toNat_mod, UInt8.reduceToNat]
  omega

/-! ## Characters -/

/-- The halves of a byte, the high one first. -/
def halves (byte : UInt8) : List UInt8 := [byte / 16, byte % 16]

theorem digitsOf_eq (byte : UInt8) :
    digitsOf byte = (halves byte).map fun half => Nat.digitChar half.toNat := by
  simp [digitsOf, halves]

theorem toNat_lt_of_mem_halves {bytes : Bytes} {half : UInt8} (h : half ∈ bytes.flatMap halves) :
    half.toNat < 16 := by
  obtain ⟨byte, -, hmem⟩ := List.mem_flatMap.mp h
  have hbyte := byte.toNat_lt
  rcases List.mem_pair.mp hmem with rfl | rfl
  · show byte.toNat / 16 < 16
    omega
  · show byte.toNat % 16 < 16
    omega

/-- A character of one byte is a digit, in either case, just if its byte is read as one. -/
theorem digit?_ascii_iff {c : Char} (hascii : c.toNat < 128) :
    String.utf8EncodeChar c = [UInt8.ofNat c.toNat] ∧
      ∀ half : UInt8, half.toNat < 16 →
        (digit? (UInt8.ofNat c.toNat) = some half ↔ c.toLower = Nat.digitChar half.toNat) := by
  have hall : ∀ n : Fin 128, String.utf8EncodeChar (Char.ofNat n) = [UInt8.ofNat n] ∧
      ∀ d : Fin 16, digit? (UInt8.ofNat n) = some (UInt8.ofNat d) ↔
        (Char.ofNat n).toLower = Nat.digitChar d := by
    decide +kernel
  obtain ⟨htext, hdigits⟩ := hall ⟨c.toNat, hascii⟩
  rw [Char.ofNat_toNat] at htext hdigits
  refine ⟨htext, ?_⟩
  intro half hhalf
  have hdigit := hdigits ⟨half.toNat, hhalf⟩
  rwa [UInt8.ofNat_toNat] at hdigit

/-- A character of more bytes is no digit, and its first byte is not read as one. -/
theorem digit?_of_not_ascii {c : Char} (hlong : 128 ≤ c.toNat) :
    (∃ byte rest, String.utf8EncodeChar c = byte :: rest ∧ digit? byte = none) ∧
      ∀ d < 16, c.toLower ≠ Nat.digitChar d := by
  have hnone : ∀ byte : UInt8, 128 ≤ byte.toNat → digit? byte = none := by
    apply forall_byte
    decide +kernel
  have hupper : ¬ (c.val ≥ 'A'.val ∧ c.val ≤ 'Z'.val) := by
    intro hupper
    have hle : c.toNat ≤ 90 := hupper.2
    omega
  have hlower : c.toLower = c := dif_neg hupper
  constructor
  · unfold String.utf8EncodeChar
    have hval : ¬ c.val.toNat ≤ 127 := Nat.not_le.mpr hlong
    simp only [if_neg hval]
    split_ifs
    · exact ⟨_, _, rfl, hnone _ (by rw [UInt8.toNat_ofNat']; omega)⟩
    · exact ⟨_, _, rfl, hnone _ (by rw [UInt8.toNat_ofNat']; omega)⟩
    · exact ⟨_, _, rfl, hnone _ (by rw [UInt8.toNat_ofNat']; omega)⟩
  · intro d hd hdigit
    have hsmall : ∀ d : Fin 16, (Nat.digitChar d).toNat < 128 := by decide
    have hless := hsmall ⟨d, hd⟩
    rw [← hdigit, hlower] at hless
    omega

/-- What is a digit in lower case is a digit. -/
theorem mem_digitChars_of_lower {c : Char} (h : IsDigit c.toLower) : c ∈ digitChars := by
  obtain ⟨d, hlower⟩ := h
  by_cases hascii : c.toNat < 128
  · -- its byte is read as a digit, so it is the code of one
    have hhalf : (UInt8.ofNat d).toNat = d := by
      rw [UInt8.toNat_ofNat']
      omega
    have hread : digit? (UInt8.ofNat c.toNat) = some (UInt8.ofNat d) := by
      rw [(digit?_ascii_iff hascii).2 _ (hhalf.trans_lt d.isLt), hhalf, hlower]
    obtain ⟨digit, hmem, hcode⟩ := isDigitByte_of_digit? hread
    have hsame : digit.toNat = c.toNat := by
      rw [hcode, UInt8.toNat_ofNat']
      omega
    rwa [Char.toNat_inj.mp hsame] at hmem
  · exact absurd hlower ((digit?_of_not_ascii (Nat.not_lt.mp hascii)).2 d d.isLt)

/-- **Digits byte by byte are digits character by character.** -/
theorem map_digit?_utf8_iff (text : List Char) {digits : List UInt8}
    (hdigits : ∀ half ∈ digits, half.toNat < 16) :
    (text.flatMap String.utf8EncodeChar).map digit? = digits.map some ↔
      text.map Char.toLower = digits.map fun half => Nat.digitChar half.toNat := by
  induction text generalizing digits with
  | nil => cases digits <;> simp
  | cons c text ih =>
    rw [List.flatMap_cons, List.map_append, List.map_cons]
    by_cases hascii : c.toNat < 128
    · obtain ⟨htext, hdigit⟩ := digit?_ascii_iff hascii
      rw [htext]
      cases digits with
      | nil => simp
      | cons half digits =>
        obtain ⟨hhalf, hrest⟩ := List.forall_mem_cons.mp hdigits
        rw [List.map_singleton, List.singleton_append, List.map_cons, List.map_cons,
          List.cons_eq_cons, List.cons_eq_cons, hdigit half hhalf, ih hrest]
    · obtain ⟨⟨byte, rest, htext, hnone⟩, hlower⟩ := digit?_of_not_ascii (Nat.not_lt.mp hascii)
      rw [htext, List.map_cons, List.cons_append, hnone]
      cases digits with
      | nil => simp
      | cons half digits =>
        have hno := hlower half.toNat (hdigits half (by simp))
        simp [hno]

/-! ## What is read -/

/-- What is read from text are the bytes whose halves its digits are. -/
theorem decodePairs_eq_ok_iff (position : ℕ) (text bytes : Bytes) :
    decodePairs position text = .ok bytes ↔
      text.map digit? = (bytes.flatMap halves).map some := by
  induction position, text using decodePairs.induct generalizing bytes with
  | case1 position => cases bytes <;> simp [decodePairs, halves]
  | case2 position byte => cases bytes <;> simp [decodePairs, halves]
  | case3 position high low rest hnone =>
    cases bytes <;> simp [decodePairs, halves, hnone]
  | case4 position high low rest h hnone hhigh =>
    cases bytes <;> simp [decodePairs, halves, hnone, hhigh]
  | case5 position high low rest h l hlow hhigh ih =>
    have hread : decodePairs position (high :: low :: rest) =
        (decodePairs (position + 2) rest).map ((h * 16 + l) :: ·) := by
      simp only [decodePairs, hhigh, hlow]
    rw [hread, List.map_cons, List.map_cons, hhigh, hlow]
    cases bytes with
    | nil => cases decodePairs (position + 2) rest <;> simp [Except.map]
    | cons byte bytes =>
      have hpair := pair_eq_iff (toNat_lt_of_digit? hhigh) (toNat_lt_of_digit? hlow) byte
      have hdigits : ((byte :: bytes).flatMap halves).map some =
          some (byte / 16) :: some (byte % 16) :: (bytes.flatMap halves).map some := rfl
      rw [hdigits, List.cons_eq_cons, List.cons_eq_cons, Option.some_inj, Option.some_inj,
        ← ih bytes, ← and_assoc, ← hpair]
      cases decodePairs (position + 2) rest <;> simp [Except.map]

/-- The digits of a byte string, by halves. -/
theorem toList_encode_eq (bytes : Bytes) :
    (encode bytes).toList =
      (bytes.flatMap halves).map fun half => Nat.digitChar half.toNat := by
  rw [encode, String.toList_ofList, List.map_flatMap]
  simp only [← digitsOf_eq]

/-- What is read comes in pairs. -/
theorem length_of_decodePairs {position : ℕ} {text bytes : Bytes}
    (h : decodePairs position text = .ok bytes) : text.length = 2 * bytes.length := by
  have hlength := congrArg List.length ((decodePairs_eq_ok_iff position text bytes).mp h)
  have hhalves : ∀ byte, (halves byte).length = 2 := fun _ => rfl
  rw [List.length_map, List.length_map, List.length_flatMap] at hlength
  simp only [hhalves, List.map_const', List.sum_replicate, smul_eq_mul] at hlength
  omega

/-- **What is read** from a text, in terms of what would be written: the text is that, but
for the case of its digits. -/
theorem decode_eq_ok_iff_lower (text : List Char) (bytes : Bytes) :
    decode text = .ok bytes ↔ text.map Char.toLower = (encode bytes).toList := by
  rw [toList_encode_eq, ← map_digit?_utf8_iff text fun half => toNat_lt_of_mem_halves,
    ← decodePairs_eq_ok_iff 0, decode]
  split_ifs with hodd
  · -- with a digit too many, the pairs would not have been read either
    constructor
    · intro h
      simp at h
    · intro h
      have hlength := length_of_decodePairs h
      omega
  · exact Iff.rfl

/-! ## What is blamed -/

/-- Where there are pairs, the first byte that is no digit is blamed. -/
theorem decodePairs_eq_error {position : ℕ} {text : Bytes} {fault : Fault}
    (heven : text.length % 2 = 0) (h : decodePairs position text = .error fault) :
    ∃ front byte rest, text = front ++ byte :: rest ∧ (∀ digit ∈ front, IsDigitByte digit) ∧
      ¬ IsDigitByte byte ∧ fault = .notDigit byte (position + front.length) := by
  induction position, text using decodePairs.induct with
  | case1 position => simp [decodePairs] at h
  | case2 position byte => simp at heven
  | case3 position high low rest hnone =>
    simp only [decodePairs, hnone, Except.error.injEq] at h
    exact ⟨[], high, low :: rest, rfl, by simp, (digit?_eq_none_iff high).mp hnone, h.symm⟩
  | case4 position high low rest value hnone hhigh =>
    simp only [decodePairs, hnone, hhigh, Except.error.injEq] at h
    refine ⟨[high], low, rest, rfl, ?_, (digit?_eq_none_iff low).mp hnone, h.symm⟩
    exact List.forall_mem_singleton.mpr (isDigitByte_of_digit? hhigh)
  | case5 position high low rest value value' hlow hhigh ih =>
    have hread : decodePairs (position + 2) rest = .error fault := by
      simp only [decodePairs, hhigh, hlow] at h
      cases hrest : decodePairs (position + 2) rest with
      | error other => simpa [hrest, Except.map] using h
      | ok bytes => simp [hrest, Except.map] at h
    have hrest : rest.length % 2 = 0 := by
      simp only [List.length_cons] at heven
      omega
    obtain ⟨front, byte, behind, rfl, hdigits, hbyte, rfl⟩ := ih hrest hread
    refine ⟨high :: low :: front, byte, behind, rfl, ?_, hbyte, ?_⟩
    · rw [List.forall_mem_cons, List.forall_mem_cons]
      exact ⟨isDigitByte_of_digit? hhigh, isDigitByte_of_digit? hlow, hdigits⟩
    · rw [List.length_cons, List.length_cons]
      congr 1
      omega

/-- **What is blamed** where a text is not read: a digit too many, or else the first byte
of the text that is no digit. -/
theorem decode_eq_error_cases {text : List Char} {fault : Fault}
    (h : decode text = .error fault) :
    ((text.flatMap String.utf8EncodeChar).length % 2 = 1 ∧ fault = .oddLength) ∨
      ((text.flatMap String.utf8EncodeChar).length % 2 = 0 ∧
        ∃ front byte rest, text.flatMap String.utf8EncodeChar = front ++ byte :: rest ∧
          (∀ digit ∈ front, IsDigitByte digit) ∧ ¬ IsDigitByte byte ∧
          fault = .notDigit byte front.length) := by
  unfold decode at h
  simp only at h
  split_ifs at h with hodd
  · exact Or.inl ⟨hodd, (Except.error.inj h).symm⟩
  · have heven : (text.flatMap String.utf8EncodeChar).length % 2 = 0 := by omega
    obtain ⟨front, byte, rest, hsplit, hdigits, hbyte, hfault⟩ := decodePairs_eq_error heven h
    rw [Nat.zero_add] at hfault
    exact Or.inr ⟨heven, front, byte, rest, hsplit, hdigits, hbyte, hfault⟩

end Base128.Hex

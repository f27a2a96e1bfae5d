import Base128.HexArgument
import Base128.Proofs.HexDigits

/-! # Dressed digits

An argument is read in three steps: blanks are taken off its ends, then a mark, then all
separators. The steps get in each other's way, since a space is a blank and a separator,
and the mark is looked for between them. What comes out is nevertheless simple: an
argument stands for bytes **just if it can be written** as blanks, a mark or none, the
digits of the bytes with separators anywhere, and blanks again.

* `HexArgument.Spread` — digits with separators anywhere.
* `HexArgument.Dressed` — an argument as it can be written.
* `Text.exists_trimmed_split`, `Text.trimmed_append_blanks` — what trimming takes off.
* `HexArgument.joinedUp_unmarked_trimmed` — undressing finds the digits again.
* `HexArgument.decode_encode` — in particular, digits that are written are read back.
* `HexArgument.decode_dressed` — what is accepted, and what is said of the others.
-/

namespace Base128

namespace Text

/-! ## Trimming -/

/-- All of the text is blank. -/
def Blank (text : List Char) : Prop := ∀ c ∈ text, isBlank c = true

variable {front text back : List Char}

theorem trimmedEnd_append_blanks (h : Blank back) : trimmedEnd (text ++ back) = trimmedEnd text := by
  have hreverse : ∀ c ∈ back.reverse, isBlank c = true := by
    intro c hc
    exact h c (List.mem_reverse.mp hc)
  rw [trimmedEnd, List.reverse_append, List.dropWhile_append_of_pos hreverse, trimmedEnd]

/-- Blanks at the two ends make no difference. -/
theorem trimmed_append_blanks (hfront : Blank front) (hback : Blank back) :
    trimmed (front ++ (text ++ back)) = trimmed text := by
  rw [trimmed, trimmed, List.dropWhile_append_of_pos hfront, List.dropWhile_append]
  split_ifs with hempty
  · -- nothing but blanks
    rw [List.isEmpty_iff.mp hempty, ← List.append_nil back, List.dropWhile_append_of_pos hback]
    rfl
  · exact trimmedEnd_append_blanks hback

theorem exists_trimmedEnd_split (text : List Char) :
    ∃ back, text = trimmedEnd text ++ back ∧ Blank back := by
  refine ⟨(text.reverse.takeWhile isBlank).reverse, ?_, ?_⟩
  · rw [trimmedEnd, ← List.reverse_append, List.takeWhile_append_dropWhile, List.reverse_reverse]
  · intro c hc
    exact List.all_eq_true.mp List.all_takeWhile c (List.mem_reverse.mp hc)

/-- Nothing but blanks is taken off. -/
theorem exists_trimmed_split (text : List Char) :
    ∃ front back, text = front ++ (trimmed text ++ back) ∧ Blank front ∧ Blank back := by
  obtain ⟨back, hsplit, hback⟩ := exists_trimmedEnd_split (text.dropWhile isBlank)
  refine ⟨text.takeWhile isBlank, back, ?_, List.all_eq_true.mp List.all_takeWhile, hback⟩
  rw [trimmed, ← hsplit, List.takeWhile_append_dropWhile]

/-- What is not blank is not taken off. -/
theorem trimmedEnd_cons {c : Char} (h : isBlank c = false) (text : List Char) :
    trimmedEnd (c :: text) = c :: trimmedEnd text := by
  have hlast : [c].dropWhile isBlank = [c] := by rw [List.dropWhile_cons, h, if_neg (by simp)]
  rw [trimmedEnd, List.reverse_cons, List.dropWhile_append, hlast]
  split_ifs with hempty
  · rw [trimmedEnd, List.isEmpty_iff.mp hempty]
    rfl
  · rw [List.reverse_append, trimmedEnd]
    rfl

theorem trimmed_cons {c : Char} (h : isBlank c = false) (text : List Char) :
    trimmed (c :: text) = c :: trimmedEnd text := by
  rw [trimmed, List.dropWhile_cons, h, if_neg (by simp), trimmedEnd_cons h]

end Text

namespace HexArgument

open Text (Blank isBlank trimmed trimmedEnd)

/-! ## Arguments as they can be written -/

/-- The second text is the first one, with separators anywhere. -/
inductive Spread : List Char → List Char → Prop where
  | nil : Spread [] []
  | digit {digits text : List Char} (c : Char) : Spread digits text →
      Spread (c :: digits) (c :: text)
  | separator {digits text : List Char} {c : Char} (h : c ∈ [' ', ':', '_', ',']) :
      Spread digits text → Spread digits (c :: text)

/-- Blanks, a mark or none, the digits of `bytes` in either case with separators
anywhere, and blanks. -/
inductive Dressed (bytes : Bytes) : List Char → Prop where
  | intro {front mark digits spread back : List Char} (hfront : Blank front)
      (hmark : mark ∈ [[], ['0', 'x'], ['0', 'X']])
      (hdigits : digits.map Char.toLower = (Hex.encode bytes).toList)
      (hspread : Spread digits spread) (hback : Blank back) :
      Dressed bytes (front ++ (mark ++ spread ++ back))

/-! ## Separators -/

theorem isSeparator_iff (c : Char) : isSeparator c = true ↔ c ∈ [' ', ':', '_', ','] := by
  simp [isSeparator, or_assoc]

/-- `text` without its separators. -/
def joinedUp (text : List Char) : List Char := text.filter fun c => !isSeparator c

theorem joinedUp_append (front back : List Char) :
    joinedUp (front ++ back) = joinedUp front ++ joinedUp back :=
  List.filter_append front back

/-- What is left without separators was spread by them. -/
theorem spread_joinedUp (text : List Char) : Spread (joinedUp text) text := by
  induction text with
  | nil => exact .nil
  | cons c text ih =>
    by_cases hsep : isSeparator c = true
    · have hjoined : joinedUp (c :: text) = joinedUp text := by simp [joinedUp, hsep]
      rw [hjoined]
      exact .separator ((isSeparator_iff c).mp hsep) ih
    · have hjoined : joinedUp (c :: text) = c :: joinedUp text := by simp [joinedUp, hsep]
      rw [hjoined]
      exact .digit c ih

namespace Spread

variable {digits text : List Char}

/-- No separators are separators anywhere. -/
theorem refl (digits : List Char) : Spread digits digits := by
  induction digits with
  | nil => exact .nil
  | cons c digits ih => exact .digit c ih

/-- What was spread is found again, unless it has separators itself. -/
theorem joinedUp_eq (h : Spread digits text) (hdigits : ∀ c ∈ digits, isSeparator c = false) :
    joinedUp text = digits := by
  induction h with
  | nil => rfl
  | digit c hspread ih =>
    obtain ⟨hsep, hrest⟩ := List.forall_mem_cons.mp hdigits
    rw [joinedUp, List.filter_cons, hsep]
    exact congrArg (c :: ·) (ih hrest)
  | separator hsep hspread ih =>
    rw [joinedUp, List.filter_cons, (isSeparator_iff _).mpr hsep]
    exact ih hdigits

theorem mem_or_separator (h : Spread digits text) {c : Char} (hc : c ∈ text) :
    c ∈ digits ∨ isSeparator c = true := by
  induction h with
  | nil => simp at hc
  | digit d hspread ih =>
    rcases List.mem_cons.mp hc with rfl | hrest
    · exact Or.inl (by simp)
    · exact (ih hrest).imp_left (List.mem_cons_of_mem d)
  | separator hsep hspread ih =>
    rcases List.mem_cons.mp hc with rfl | hrest
    · exact Or.inr ((isSeparator_iff _).mpr hsep)
    · exact ih hrest

end Spread

/-! ## What can be spread -/

/-- The characters of a text that holds no more than digits and separators. -/
def IsBody (c : Char) : Prop := c ∈ Hex.digitChars ∨ isSeparator c = true

/-- Among them a blank is a separator. -/
theorem IsBody.isSeparator_of_isBlank {c : Char} (h : IsBody c) (hblank : isBlank c = true) :
    isSeparator c = true := by
  have hall : Hex.digitChars.all (fun c => !isBlank c) = true := by decide +kernel
  rcases h with hdigit | hsep
  · have hno := List.all_eq_true.mp hall c hdigit
    rw [hblank] at hno
    simp at hno
  · exact hsep

/-- And there is no mark. -/
theorem IsBody.ne_mark {c : Char} (h : IsBody c) : c ≠ 'x' ∧ c ≠ 'X' := by
  have hx : 'x' ∉ Hex.digitChars ∧ 'X' ∉ Hex.digitChars := by simp [Hex.digitChars]
  have hsep : isSeparator 'x' = false ∧ isSeparator 'X' = false := ⟨rfl, rfl⟩
  constructor
  · rintro rfl
    simp [IsBody, hx.1, hsep.1] at h
  · rintro rfl
    simp [IsBody, hx.2, hsep.2] at h

/-- Blanks among them are joined up to nothing. -/
theorem joinedUp_of_blank {text : List Char} (hbody : ∀ c ∈ text, IsBody c) (h : Blank text) :
    joinedUp text = [] := by
  apply List.filter_eq_nil_iff.mpr
  intro c hc
  rw [(hbody c hc).isSeparator_of_isBlank (h c hc)]
  simp

/-- So trimming takes off no more than joining up does. -/
theorem joinedUp_trimmed {text : List Char} (hbody : ∀ c ∈ text, IsBody c) :
    joinedUp (trimmed text) = joinedUp text := by
  obtain ⟨front, back, hsplit, hfront, hback⟩ := Text.exists_trimmed_split text
  rw [hsplit, List.forall_mem_append, List.forall_mem_append] at hbody
  conv_rhs => rw [hsplit]
  rw [joinedUp_append, joinedUp_append, joinedUp_of_blank hbody.1 hfront,
    joinedUp_of_blank hbody.2.2 hback, List.nil_append, List.append_nil]

theorem joinedUp_trimmedEnd {text : List Char} (hbody : ∀ c ∈ text, IsBody c) :
    joinedUp (trimmedEnd text) = joinedUp text := by
  obtain ⟨back, hsplit, hback⟩ := Text.exists_trimmedEnd_split text
  rw [hsplit, List.forall_mem_append] at hbody
  conv_rhs => rw [hsplit]
  rw [joinedUp_append, joinedUp_of_blank hbody.2 hback, List.append_nil]

/-! ## Marks -/

theorem exists_mark (text : List Char) :
    ∃ mark ∈ [[], ['0', 'x'], ['0', 'X']], text = mark ++ unmarked text := by
  unfold unmarked
  split
  · exact ⟨['0', 'x'], by simp, rfl⟩
  · exact ⟨['0', 'X'], by simp, rfl⟩
  · exact ⟨[], by simp, rfl⟩

/-- Digits and separators have no mark in front. -/
theorem unmarked_of_isBody {text : List Char} (hbody : ∀ c ∈ text, IsBody c) :
    unmarked text = text := by
  unfold unmarked
  split
  · exact absurd rfl (hbody 'x' (by simp)).ne_mark.1
  · exact absurd rfl (hbody 'X' (by simp)).ne_mark.2
  · rfl

/-! ## Undressing -/

theorem trimmed_mark {mark : List Char} (hmark : mark ∈ [['0', 'x'], ['0', 'X']])
    (text : List Char) : trimmed (mark ++ text) = mark ++ trimmedEnd text := by
  have hzero : isBlank '0' = false := by decide +kernel
  have hx : isBlank 'x' = false ∧ isBlank 'X' = false := by decide +kernel
  rcases List.mem_pair.mp hmark with rfl | rfl
  · exact (Text.trimmed_cons hzero _).trans (congrArg _ (Text.trimmedEnd_cons hx.1 text))
  · exact (Text.trimmed_cons hzero _).trans (congrArg _ (Text.trimmedEnd_cons hx.2 text))

theorem unmarked_mark {mark : List Char} (hmark : mark ∈ [['0', 'x'], ['0', 'X']])
    (text : List Char) : unmarked (mark ++ text) = text := by
  rcases List.mem_pair.mp hmark with rfl | rfl
  · rfl
  · rfl

/-- **Undressing finds the digits again.** -/
theorem joinedUp_unmarked_trimmed {front mark digits spread back : List Char}
    (hfront : Blank front) (hmark : mark ∈ [[], ['0', 'x'], ['0', 'X']])
    (hdigits : ∀ c ∈ digits, c ∈ Hex.digitChars) (hspread : Spread digits spread)
    (hback : Blank back) :
    joinedUp (unmarked (trimmed (front ++ (mark ++ spread ++ back)))) = digits := by
  have hbody : ∀ c ∈ spread, IsBody c := by
    intro c hc
    exact (hspread.mem_or_separator hc).imp_left (hdigits c)
  have hsep : ∀ c ∈ digits, isSeparator c = false := by
    have hall : Hex.digitChars.all (fun c => !isSeparator c) = true := by decide
    intro c hc
    simpa using List.all_eq_true.mp hall c (hdigits c hc)
  rw [Text.trimmed_append_blanks hfront hback]
  rcases List.mem_cons.mp hmark with rfl | hmarked
  · -- trimming reaches into the digits and what stands between them
    have htrimmed : ∀ c ∈ trimmed spread, IsBody c := by
      obtain ⟨before, behind, hsplit, -⟩ := Text.exists_trimmed_split spread
      intro c hc
      apply hbody
      rw [hsplit]
      simp [hc]
    rw [List.nil_append, unmarked_of_isBody htrimmed, joinedUp_trimmed hbody,
      hspread.joinedUp_eq hsep]
  · rw [trimmed_mark hmarked, unmarked_mark hmarked, joinedUp_trimmedEnd hbody,
      hspread.joinedUp_eq hsep]

/-! ## What is accepted -/

/-- **What is accepted** are the arguments that are dressed digits. -/
theorem decode_eq_ok_iff_dressed (argument : String) (bytes : Bytes) :
    decode argument = .ok bytes ↔ Dressed bytes argument.toList := by
  rw [decode, Hex.decode_eq_ok_iff_lower]
  constructor
  · intro hdigits
    obtain ⟨front, back, htrimmed, hfront, hback⟩ :=
      Text.exists_trimmed_split argument.toList
    obtain ⟨mark, hmark, hunmarked⟩ := exists_mark (trimmed argument.toList)
    have hspread : Spread (digits argument) (unmarked (trimmed argument.toList)) :=
      spread_joinedUp _
    have hdressed := Dressed.intro hfront hmark hdigits hspread hback
    rwa [← hunmarked, ← htrimmed] at hdressed
  · intro hdressed
    generalize htext : argument.toList = text at hdressed
    cases hdressed with
    | @intro front mark digits spread back hfront hmark hdigits hspread hback =>
      have hchars : ∀ c ∈ digits, c ∈ Hex.digitChars := by
        intro c hc
        apply Hex.mem_digitChars_of_lower
        apply Hex.isDigit_of_mem_encode
        rw [← hdigits]
        exact List.mem_map_of_mem hc
      have hfound : HexArgument.digits argument = digits := by
        show joinedUp (unmarked (trimmed argument.toList)) = digits
        rw [htext]
        exact joinedUp_unmarked_trimmed hfront hmark hchars hspread hback
      rw [hfound, hdigits]

/-- **Digits are read back**: as they are written, they are dressed in nothing. -/
theorem decode_encode (bytes : Bytes) : decode (Hex.encode bytes) = .ok bytes := by
  have hlower : ∀ c ∈ (Hex.encode bytes).toList, c.toLower = c := by
    have hall : ∀ d : Fin 16, (Nat.digitChar d).toLower = Nat.digitChar d := by decide
    intro c hc
    obtain ⟨d, rfl⟩ := Hex.isDigit_of_mem_encode hc
    exact hall d
  have hdigits : (Hex.encode bytes).toList.map Char.toLower = (Hex.encode bytes).toList :=
    (List.map_congr_left hlower).trans (List.map_id' _)
  have hblank : Blank [] := by simp [Blank]
  have hmark : [] ∈ [[], ['0', 'x'], ['0', 'X']] := by simp
  have hdressed := Dressed.intro hblank hmark hdigits (Spread.refl _) hblank
  rw [List.nil_append, List.nil_append, List.append_nil] at hdressed
  exact (decode_eq_ok_iff_dressed _ bytes).mpr hdressed

/-- The text of an argument without its dress, as bytes. -/
def undressed (argument : String) : Bytes := (digits argument).flatMap String.utf8EncodeChar

/-- The messages of the two kinds of faults differ from the first letter on. -/
theorem message_eq_iff (fault : Hex.Fault) :
    fault.message = "Odd number of digits" ↔ fault = .oddLength := by
  constructor
  · intro hmessage
    cases fault with
    | oddLength => rfl
    | notDigit byte position =>
      have hinvalid : "Invalid character ".toList.head? = some 'I' := by decide +kernel
      have hodd : "Odd number of digits".toList.head? = some 'O' := by decide +kernel
      have hfirst : ("Invalid character " ++ Text.quotedChar (Char.ofNat byte.toNat)
          ++ " at position " ++ Text.decimal position).toList.head? =
            "Odd number of digits".toList.head? :=
        congrArg (fun text => text.toList.head?) hmessage
      rw [String.toList_append, String.toList_append, String.toList_append, List.append_assoc,
        List.append_assoc, List.head?_append, hinvalid, hodd] at hfirst
      have hletter : 'I' = 'O' := Option.some.inj hfirst
      simp at hletter
  · intro h
    rw [h]
    rfl

/-- A byte is the first one of its kind if no byte in front of it is of that kind. -/
theorem isLeast_length {text front rest : Bytes} {byte : UInt8} {p : UInt8 → Prop}
    (hsplit : text = front ++ byte :: rest) (hfront : ∀ b ∈ front, p b) (hbyte : ¬ p byte) :
    IsLeast {i | ∃ b, text[i]? = some b ∧ ¬ p b} front.length := by
  rw [hsplit]
  constructor
  · exact ⟨byte, by simp, hbyte⟩
  · intro i hi
    obtain ⟨b, hb, hno⟩ := hi
    by_contra hless
    rw [List.getElem?_append_left (Nat.lt_of_not_le hless)] at hb
    exact hno (hfront b (List.mem_of_getElem? hb))

/-- **Arguments.** An argument stands for bytes just if it is their digits, dressed. Any
other argument is refused: for its length if its text without the dress has an odd number
of bytes, and otherwise for the first of these bytes that is no digit, which the fault
names with its place. -/
theorem decode_dressed (argument : String) :
    (∀ bytes, decode argument = .ok bytes ↔ Dressed bytes argument.toList) ∧
      ((∀ bytes, ¬ Dressed bytes argument.toList) →
        ∃ fault, decode argument = .error fault ∧
          (fault.message = "Odd number of digits" ↔ (undressed argument).length % 2 = 1) ∧
          ((undressed argument).length % 2 = 0 →
            ∃ byte position, fault = .notDigit byte position ∧
              (undressed argument)[position]? = some byte ∧
              IsLeast {i | ∃ b, (undressed argument)[i]? = some b ∧ ¬ Hex.IsDigitByte b}
                position)) := by
  refine ⟨decode_eq_ok_iff_dressed argument, ?_⟩
  intro hnone
  cases hdecode : decode argument with
  | ok bytes => exact absurd ((decode_eq_ok_iff_dressed argument bytes).mp hdecode) (hnone bytes)
  | error fault =>
    refine ⟨fault, rfl, ?_⟩
    rw [message_eq_iff]
    rcases Hex.decode_eq_error_cases hdecode with ⟨hodd, rfl⟩ |
      ⟨heven, front, byte, rest, hsplit, hdigits, hbyte, rfl⟩
    · refine ⟨iff_of_true rfl hodd, ?_⟩
      intro heven
      rw [undressed, hodd] at heven
      simp at heven
    · refine ⟨iff_of_false (by simp) ?_, ?_⟩
      · rw [undressed, heven]
        simp
      · intro _
        have hleast := isLeast_length hsplit hdigits hbyte
        refine ⟨byte, front.length, rfl, ?_, hleast⟩
        rw [undressed, hsplit]
        simp

/-- Digits in both cases, with all that may stand around and between them; and digits with
a letter among them that is no digit, and takes up two bytes. -/
theorem decode_dressed_pair :
    decode "\t0X e5:8E_2,6\u3000" = .ok [0xE5, 0x8E, 0x26] ∧
      decode " 0x a\u00e9b" = .error (.notDigit 0xC3 1) ∧
      IsLeast {i | ∃ b, (undressed " 0x a\u00e9b")[i]? = some b ∧ ¬ Hex.IsDigitByte b} 1 := by
  have hdressed : Dressed [0xE5, 0x8E, 0x26]
      (['\t'] ++ (['0', 'X'] ++ " e5:8E_2,6".toList ++ ['\u3000'])) :=
    .intro (by simp [Blank]; decide +kernel) (by simp) (by decide +kernel)
      (spread_joinedUp " e5:8E_2,6".toList) (by simp [Blank]; decide +kernel)
  have htext : "\t0X e5:8E_2,6\u3000".toList =
      ['\t'] ++ (['0', 'X'] ++ " e5:8E_2,6".toList ++ ['\u3000']) := by
    decide +kernel
  refine ⟨((decode_dressed _).1 _).mpr (htext ▸ hdressed), ?_⟩
  have hdecode : decode " 0x a\u00e9b" = .error (.notDigit 0xC3 1) := by decide +kernel
  have hnone : ∀ bytes, ¬ Dressed bytes " 0x a\u00e9b".toList := by
    intro bytes h
    have hok := ((decode_dressed _).1 bytes).mpr h
    rw [hdecode] at hok
    simp at hok
  obtain ⟨fault, hfault, -, hbyte⟩ := (decode_dressed " 0x a\u00e9b").2 hnone
  obtain ⟨byte, position, rfl, -, hleast⟩ := hbyte (by decide +kernel)
  rw [hdecode] at hfault
  obtain ⟨-, rfl⟩ := Hex.Fault.notDigit.inj (Except.error.inj hfault)
  exact ⟨hdecode, hleast⟩

end HexArgument

end Base128

import Mathlib.Data.ENat.Basic
import Mathlib.Tactic.Order
import Base128.Proofs.Ending

/-! # The byte that decides

How a reading ends is settled by three places in the byte string, each of which
can be found without decoding anything. A place that does not exist is `⊤`.

* `firstPlace` — the first byte with some property, asked with its index.
* `endPlace` — the first byte that ends a number.
* `lossPlace` — the first byte with a bit for which there is no room, where
  such bits are refused.
* `Settings.limitPlace` — the first place beyond the limit on the length.
* `unfinished_iff_le` — bytes are passed exactly as far as all three places.
* `decode_verdict` — so the **order of the places** says what decoding answers:
  at one and the same byte the limit is asked before the bits, and the bits
  before the end.
-/

namespace Base128

/-! ## First places -/

/-- The index of the first byte for which `p` holds, `⊤` if there is none. -/
def firstPlace (p : ℕ → UInt8 → Bool) (bytes : Bytes) : ℕ∞ :=
  match (bytes.mapIdx p).findIdx? id with
  | some index => index
  | none => ⊤

section firstPlace

variable {p : ℕ → UInt8 → Bool} {bytes : Bytes} {n : ℕ}

theorem firstPlace_eq_coe_iff :
    firstPlace p bytes = n ↔
      ∃ h : n < bytes.length, p n bytes[n] = true ∧ ∀ (i : ℕ) (_ : i < n), p i bytes[i] = false := by
  have hfind : firstPlace p bytes = n ↔ (bytes.mapIdx p).findIdx? id = some n := by
    unfold firstPlace
    cases (bytes.mapIdx p).findIdx? id with
    | none => simp
    | some index => simp
  rw [hfind, List.findIdx?_eq_some_iff_getElem]
  simp

theorem firstPlace_eq_top_iff :
    firstPlace p bytes = ⊤ ↔ ∀ (i : ℕ) (_ : i < bytes.length), p i bytes[i] = false := by
  have hfind : firstPlace p bytes = ⊤ ↔ (bytes.mapIdx p).findIdx? id = none := by
    unfold firstPlace
    cases (bytes.mapIdx p).findIdx? id with
    | none => simp
    | some index => simp
  rw [hfind, List.findIdx?_eq_none_iff]
  simp [List.mem_mapIdx]

/-- The first place is not before `n` exactly where nothing before `n` has the
property. -/
theorem le_firstPlace_iff :
    n ≤ firstPlace p bytes ↔ ∀ (i : ℕ) (_ : i < bytes.length), i < n → p i bytes[i] = false := by
  cases hfirst : firstPlace p bytes with
  | top =>
    have hnone := firstPlace_eq_top_iff.mp hfirst
    simp only [le_top, true_iff]
    intro i hi _
    exact hnone i hi
  | coe first =>
    rcases firstPlace_eq_coe_iff.mp hfirst with ⟨hlt, hfound, hbefore⟩
    rw [Nat.cast_le]
    constructor
    · intro hle i _ hi
      exact hbefore i (by omega)
    · intro hnone
      by_contra hgt
      rw [hnone first hlt (by omega)] at hfound
      simp at hfound

/-- A first place that is not among the bytes does not exist. -/
theorem firstPlace_eq_top_of_le (h : bytes.length ≤ firstPlace p bytes) :
    firstPlace p bytes = ⊤ := by
  rw [firstPlace_eq_top_iff]
  intro i hi
  exact le_firstPlace_iff.mp h i hi hi

end firstPlace

/-- A place lies behind `n` exactly where it is not before the next one. -/
theorem coe_lt_iff {place : ℕ∞} {n : ℕ} : n < place ↔ (n + 1 : ℕ) ≤ place := by
  rw [Nat.cast_add, Nat.cast_one, ENat.add_one_le_iff (ENat.natCast_ne_top n)]

/-! ## Bits without room -/

/-- The group at `index` has a bit for which there is no room. -/
def Spills (index : ℕ) (byte : UInt8) : Prop :=
  ∃ bit, (byte &&& 0x7F).toNat.testBit bit = true ∧ 64 ≤ 7 * index + bit

theorem exists_lt_seven_iff_spills {index : ℕ} {byte : UInt8} :
    (∃ bit < 7, (byte &&& 0x7F).toNat.testBit bit = true ∧ 64 ≤ 7 * index + bit) ↔
      Spills index byte := by
  have hgroup : (byte &&& 0x7F).toNat < 2 ^ 7 := by
    simpa [payload] using toNat_payload_lt byte
  constructor
  · rintro ⟨bit, -, hset, hplace⟩
    exact ⟨bit, hset, hplace⟩
  · rintro ⟨bit, hset, hplace⟩
    refine ⟨bit, ?_, hset, hplace⟩
    -- a group has seven bits
    by_contra hge
    have hsmall : (byte &&& 0x7F).toNat < 2 ^ bit :=
      lt_of_lt_of_le hgroup (Nat.pow_le_pow_right (by decide) (by omega))
    rw [Nat.testBit_lt_two_pow hsmall] at hset
    simp at hset

instance (index : ℕ) (byte : UInt8) : Decidable (Spills index byte) :=
  decidable_of_iff _ exists_lt_seven_iff_spills

/-- There is room for all bits of a group exactly where its number at its place
is below `2 ^ 64`. -/
theorem spills_iff {index : ℕ} {byte : UInt8} :
    Spills index byte ↔ ¬ (payload byte).toNat * 2 ^ (7 * index) < 2 ^ 64 := by
  rw [mul_two_pow_lt_iff_testBit, toNat_payload_eq_and]
  simp only [Spills, not_forall, not_lt, exists_prop]

/-- What is asked of all bytes is asked of those before the last one, and of that one. -/
theorem forall_getElem_concat_iff {p : ℕ → UInt8 → Prop} {front : Bytes} {byte : UInt8} :
    (∀ (i : ℕ) (_ : i < (front ++ [byte]).length), p i (front ++ [byte])[i]) ↔
      (∀ (i : ℕ) (_ : i < front.length), p i front[i]) ∧ p front.length byte := by
  constructor
  · intro h
    constructor
    · intro i hi
      have hinside := h i (by simp; omega)
      rwa [List.getElem_append_left hi] at hinside
    · have hlast := h front.length (by simp)
      rwa [List.getElem_concat_length rfl] at hlast
  · rintro ⟨hfront, hbyte⟩ i hi
    rcases Nat.lt_or_ge i front.length with hlt | hge
    · rw [List.getElem_append_left hlt]
      exact hfront i hlt
    · have hlast : i = front.length := by
        rw [List.length_append, List.length_singleton] at hi
        omega
      subst hlast
      rwa [List.getElem_concat_length rfl]

/-- A number is small exactly where each of its groups has room. -/
theorem magnitude_lt_iff {bytes : Bytes} :
    magnitude bytes < 2 ^ 64 ↔ ∀ (i : ℕ) (_ : i < bytes.length), ¬ Spills i bytes[i] := by
  -- the last group lies above all others, and adds nothing where they are
  induction bytes using List.reverseRecOn with
  | nil => simp
  | append_singleton front byte ih =>
    have hsplit : magnitude (front ++ [byte]) < 2 ^ 64 ↔
        magnitude front < 2 ^ 64 ∧ ¬ Spills front.length byte := by
      rw [spills_iff, not_not, magnitude_concat]
      constructor
      · intro hlt
        omega
      · rintro ⟨hfront, hbyte⟩
        exact add_mul_two_pow_lt (magnitude_lt front) hfront hbyte
    rw [hsplit, ih, forall_getElem_concat_iff (p := fun i byte => ¬ Spills i byte)]

/-! ## The three places -/

/-- The first byte that ends a number. -/
def endPlace (bytes : Bytes) : ℕ∞ := firstPlace (fun _ byte => isLast byte) bytes

/-- The first byte with a bit that is refused. -/
def lossPlace (settings : Settings) (bytes : Bytes) : ℕ∞ :=
  match settings.overflow with
  | .reject => firstPlace (fun index byte => decide (Spills index byte)) bytes
  | .wrap => ⊤

/-- The first place beyond the limit. -/
def Settings.limitPlace (settings : Settings) : ℕ∞ :=
  match settings.maxLength with
  | some limit => limit
  | none => ⊤

variable {settings : Settings} {bytes front : Bytes} {byte : UInt8}

/-- Up to the limit, a length is allowed. -/
theorem Settings.le_limitPlace_iff {length : ℕ} :
    length ≤ settings.limitPlace ↔ settings.Allows length := by
  cases hmax : settings.maxLength with
  | none => simp [limitPlace, Allows, hmax]
  | some limit => simp [limitPlace, Allows, hmax]

/-- Up to the first byte that ends a number, all bytes continue. -/
theorem le_endPlace_iff (rest : Bytes) :
    front.length ≤ endPlace (front ++ rest) ↔ ∀ byte ∈ front, isLast byte = false := by
  unfold endPlace
  rw [le_firstPlace_iff]
  constructor
  · intro h byte hbyte
    rcases List.getElem_of_mem hbyte with ⟨i, hi, rfl⟩
    have hinside := h i (by simp; omega) hi
    rwa [List.getElem_append_left hi] at hinside
  · intro h i _ hi
    rw [List.getElem_append_left hi]
    exact h _ (List.getElem_mem hi)

/-- Up to the first byte with a bit that is refused, the number is not. -/
theorem le_lossPlace_iff (rest : Bytes) :
    front.length ≤ lossPlace settings (front ++ rest) ↔ settings.Fits (magnitude front) := by
  unfold lossPlace Settings.Fits
  cases settings.overflow with
  | wrap => simp
  | reject =>
    simp only [forall_const]
    rw [le_firstPlace_iff, magnitude_lt_iff]
    constructor
    · intro h i hi
      have hinside := h i (by simp; omega) hi
      rw [List.getElem_append_left hi] at hinside
      exact of_decide_eq_false hinside
    · intro h i _ hi
      rw [List.getElem_append_left hi]
      exact decide_eq_false (h i hi)

theorem Settings.lt_limitPlace_iff {length : ℕ} :
    length < settings.limitPlace ↔ settings.Allows (length + 1) := by
  rw [coe_lt_iff, le_limitPlace_iff]

theorem lt_endPlace_iff (rest : Bytes) :
    front.length < endPlace (front ++ byte :: rest) ↔
      ∀ b ∈ front ++ [byte], isLast b = false := by
  rw [coe_lt_iff, ← le_endPlace_iff rest]
  simp

theorem lt_lossPlace_iff (rest : Bytes) :
    front.length < lossPlace settings (front ++ byte :: rest) ↔
      settings.Fits (magnitude (front ++ [byte])) := by
  rw [coe_lt_iff, ← le_lossPlace_iff rest]
  simp

theorem lossPlace_eq_top_of_le (h : bytes.length ≤ lossPlace settings bytes) :
    lossPlace settings bytes = ⊤ := by
  unfold lossPlace at h ⊢
  cases hoverflow : settings.overflow with
  | wrap => rfl
  | reject =>
    rw [hoverflow] at h
    exact firstPlace_eq_top_of_le h

/-- **How far bytes are passed.** A part from the front is unfinished exactly
where none of the three places lies in it. -/
theorem unfinished_iff_le (rest : Bytes) :
    Unfinished settings front ↔
      front.length ≤ settings.limitPlace ∧ front.length ≤ lossPlace settings (front ++ rest) ∧
        front.length ≤ endPlace (front ++ rest) := by
  rw [Settings.le_limitPlace_iff, le_lossPlace_iff, le_endPlace_iff]
  constructor
  · intro h
    exact ⟨h.allowed, h.fits, h.continues⟩
  · rintro ⟨hallowed, hfits, hcontinues⟩
    exact ⟨hcontinues, hallowed, hfits⟩

/-- Behind unfinished bytes, the byte with which the number is refused is the first one with
a bit without room. -/
theorem lossPlace_of_refused (hpassed : Unfinished settings front)
    (hrefused : ¬ settings.Fits (magnitude (front ++ [byte]))) (rest : Bytes) :
    lossPlace settings (front ++ byte :: rest) = front.length := by
  apply le_antisymm
  · exact not_lt.mp (mt (lt_lossPlace_iff rest).mp hrefused)
  · exact ((unfinished_iff_le (byte :: rest)).mp hpassed).2.1

/-- Behind unfinished bytes, a byte that ends a number is the first one. -/
theorem endPlace_of_last (hpassed : Unfinished settings front) (hlast : isLast byte = true)
    (rest : Bytes) : endPlace (front ++ byte :: rest) = front.length := by
  apply le_antisymm
  · rw [← not_lt, lt_endPlace_iff]
    intro hcontinues
    simp [hcontinues byte (by simp)] at hlast
  · exact ((unfinished_iff_le (byte :: rest)).mp hpassed).2.2

/-! ## The order of the places -/

/-- Decoding answers in one of four ways, and the places are in the order that
belongs to it. -/
theorem decode_cases (settings : Settings) (bytes : Bytes) :
    (∃ i : ℕ, decode settings bytes = .error (.overflow i) ∧ lossPlace settings bytes = i ∧
        lossPlace settings bytes ≤ endPlace bytes ∧
        lossPlace settings bytes < settings.limitPlace) ∨
      (∃ value rest, decode settings bytes = .ok (value, rest) ∧ endPlace bytes ≠ ⊤ ∧
        endPlace bytes < lossPlace settings bytes ∧ endPlace bytes < settings.limitPlace) ∨
      (∃ limit : ℕ, decode settings bytes = .error (.tooLong limit limit) ∧
        settings.limitPlace = limit ∧
        settings.limitPlace ≤ min (lossPlace settings bytes) (endPlace bytes) ∧
        settings.limitPlace < bytes.length) ∨
      (decode settings bytes = .error (.incomplete 0 bytes.length) ∧
        lossPlace settings bytes = ⊤ ∧ endPlace bytes = ⊤ ∧
        bytes.length ≤ settings.limitPlace) := by
  rcases exists_ending settings bytes with ⟨result, hending⟩
  have hread := readFront_of_ending hending
  -- what was passed lies before all places, and the byte behind it is at one
  cases hending with
  | incomplete passed =>
    have hplaces := (unfinished_iff_le []).mp passed
    rw [List.append_nil] at hplaces
    rcases hplaces with ⟨hlimit, hloss, hend⟩
    exact Or.inr (Or.inr (Or.inr ⟨decode_eq_error_iff.mpr hread,
      lossPlace_eq_top_of_le hloss, firstPlace_eq_top_of_le hend, hlimit⟩))
  | @tooLong front rest byte passed limit =>
    rcases (unfinished_iff_le (byte :: rest)).mp passed with ⟨-, hloss, hend⟩
    have hlimit : settings.limitPlace = front.length := by
      rw [Settings.limitPlace, limit]
    refine Or.inr (Or.inr (Or.inl ⟨front.length, decode_eq_error_iff.mpr hread, hlimit, ?_, ?_⟩))
    · rw [hlimit]
      exact le_min hloss hend
    · rw [hlimit, Nat.cast_lt]
      simp
  | @overflow front rest byte passed allowed refused =>
    have hend := ((unfinished_iff_le (byte :: rest)).mp passed).2.2
    have hplace := lossPlace_of_refused passed refused rest
    refine Or.inl ⟨front.length, decode_eq_error_iff.mpr hread, hplace, ?_, ?_⟩
    · rw [hplace]
      exact hend
    · rw [hplace]
      exact Settings.lt_limitPlace_iff.mpr allowed
  | @value front rest byte passed allowed fits last =>
    have hplace := endPlace_of_last passed last rest
    have hdecode : decode settings (front ++ byte :: rest) =
        .ok (UInt64.ofNat (magnitude (front ++ [byte])), rest) := by
      simp [decode, hread, Except.map]
    refine Or.inr (Or.inl ⟨_, _, hdecode, ?_, ?_, ?_⟩)
    · rw [hplace]
      exact ENat.natCast_ne_top _
    · rw [hplace]
      exact (lt_lossPlace_iff rest).mpr fits
    · rw [hplace]
      exact Settings.lt_limitPlace_iff.mpr allowed

theorem decode_eq_overflow_iff {i : ℕ} :
    decode settings bytes = .error (.overflow i) ↔
      lossPlace settings bytes = i ∧ lossPlace settings bytes ≤ endPlace bytes ∧
        lossPlace settings bytes < settings.limitPlace := by
  rcases decode_cases settings bytes with ⟨j, hdecode, hloss, hstop, hlimit⟩ |
    ⟨value, rest, hdecode, -, hless, -⟩ | ⟨limit, hdecode, -, hmin, -⟩ | ⟨hdecode, hloss, -, -⟩
  · rw [hloss] at hstop hlimit ⊢
    simp [hdecode, hstop, hlimit]
  · simp only [hdecode, reduceCtorEq, false_iff]
    rintro ⟨-, hstop, -⟩
    order
  · simp only [hdecode, Except.error.injEq, reduceCtorEq, false_iff]
    rintro ⟨-, -, hlimit⟩
    order
  · simp [hdecode, hloss]

theorem exists_decode_eq_ok_iff :
    (∃ value rest, decode settings bytes = .ok (value, rest)) ↔
      endPlace bytes ≠ ⊤ ∧ endPlace bytes < lossPlace settings bytes ∧
        endPlace bytes < settings.limitPlace := by
  rcases decode_cases settings bytes with ⟨j, hdecode, -, hstop, -⟩ |
    ⟨value, rest, hdecode, hplaces⟩ | ⟨limit, hdecode, -, hmin, -⟩ | ⟨hdecode, -, hstop, -⟩
  · simp only [hdecode, reduceCtorEq, exists_const, false_iff]
    rintro ⟨-, hless, -⟩
    order
  · simp [hdecode, hplaces]
  · simp only [hdecode, reduceCtorEq, exists_const, false_iff]
    rintro ⟨-, -, hlimit⟩
    order
  · simp [hdecode, hstop]

theorem decode_eq_tooLong_iff {i limit : ℕ} :
    decode settings bytes = .error (.tooLong i limit) ↔
      settings.limitPlace = i ∧ settings.limitPlace = limit ∧
        settings.limitPlace ≤ min (lossPlace settings bytes) (endPlace bytes) ∧
        settings.limitPlace < bytes.length := by
  rcases decode_cases settings bytes with ⟨j, hdecode, -, -, hlimit⟩ |
    ⟨value, rest, hdecode, -, -, hlimit⟩ | ⟨l, hdecode, hplace, hmin, hlong⟩ | ⟨hdecode, -, -, hle⟩
  · simp only [hdecode, Except.error.injEq, reduceCtorEq, false_iff]
    rintro ⟨-, -, hmin, -⟩
    order
  · simp only [hdecode, reduceCtorEq, false_iff]
    rintro ⟨-, -, hmin, -⟩
    order
  · rw [hplace] at hmin hlong ⊢
    simp only [hdecode, Except.error.injEq, Fault.tooLong.injEq, Nat.cast_inj, hmin, hlong,
      and_self, and_true]
  · simp only [hdecode, Except.error.injEq, reduceCtorEq, false_iff]
    rintro ⟨-, -, -, hlong⟩
    order

theorem decode_eq_incomplete_iff {i consumed : ℕ} :
    decode settings bytes = .error (.incomplete i consumed) ↔
      i = 0 ∧ consumed = bytes.length ∧ lossPlace settings bytes = ⊤ ∧ endPlace bytes = ⊤ ∧
        bytes.length ≤ settings.limitPlace := by
  rcases decode_cases settings bytes with ⟨j, hdecode, hloss, -⟩ |
    ⟨value, rest, hdecode, hfinite, -⟩ | ⟨l, hdecode, -, -, hlong⟩ | ⟨hdecode, hplaces⟩
  · simp [hdecode, hloss]
  · simp [hdecode, hfinite]
  · simp only [hdecode, Except.error.injEq, reduceCtorEq, false_iff]
    rintro ⟨-, -, -, -, hle⟩
    order
  · simp only [hdecode, Except.error.injEq, Fault.incomplete.injEq, hplaces, and_true]
    tauto

/-- **The verdict.** What decoding answers is decided by the order of the three
places. An overflow is reported at the first bit that is refused, if this lies
before the limit and not behind the first byte that ends a number. A value is
found if that byte comes before the other two places. The bytes are too many if
there are more than the limit and neither of the other places comes before it,
and they end too early if there is nothing at all to stop at. No other fault is
ever reported. -/
theorem decode_verdict (settings : Settings) (bytes : Bytes) :
    (∀ i : ℕ, decode settings bytes = .error (.overflow i) ↔
      lossPlace settings bytes = i ∧ lossPlace settings bytes ≤ endPlace bytes ∧
        lossPlace settings bytes < settings.limitPlace) ∧
    ((∃ value rest, decode settings bytes = .ok (value, rest)) ↔
      endPlace bytes ≠ ⊤ ∧ endPlace bytes < lossPlace settings bytes ∧
        endPlace bytes < settings.limitPlace) ∧
    (∀ i limit : ℕ, decode settings bytes = .error (.tooLong i limit) ↔
      settings.limitPlace = i ∧ settings.limitPlace = limit ∧
        settings.limitPlace ≤ min (lossPlace settings bytes) (endPlace bytes) ∧
        settings.limitPlace < bytes.length) ∧
    (∀ i consumed : ℕ, decode settings bytes = .error (.incomplete i consumed) ↔
      i = 0 ∧ consumed = bytes.length ∧ lossPlace settings bytes = ⊤ ∧ endPlace bytes = ⊤ ∧
        bytes.length ≤ settings.limitPlace) ∧
    (∀ fault, decode settings bytes = .error fault →
      (∃ i, fault = .overflow i) ∨ (∃ i limit, fault = .tooLong i limit) ∨
        ∃ i consumed, fault = .incomplete i consumed) := by
  refine ⟨fun _ => decode_eq_overflow_iff, exists_decode_eq_ok_iff,
    fun _ _ => decode_eq_tooLong_iff, fun _ _ => decode_eq_incomplete_iff, ?_⟩
  intro fault h
  rcases decode_cases settings bytes with ⟨i, hdecode, -⟩ | ⟨value, rest, hdecode, -⟩ |
    ⟨limit, hdecode, -⟩ | ⟨hdecode, -⟩
  · rw [hdecode] at h
    exact Or.inl ⟨i, (Except.error.inj h).symm⟩
  · simp [hdecode] at h
  · rw [hdecode] at h
    exact Or.inr (Or.inl ⟨limit, limit, (Except.error.inj h).symm⟩)
  · rw [hdecode] at h
    exact Or.inr (Or.inr ⟨0, bytes.length, (Except.error.inj h).symm⟩)

/-- All at one byte but the limit: the tenth byte would end the number, and has
a bit to refuse. It is the last byte that the limit allows. -/
theorem decode_verdict_tie :
    decode ⟨.reject, some 10⟩ (List.replicate 9 0x80 ++ [0x02]) = .error (.overflow 9) ∧
      lossPlace ⟨.reject, some 10⟩ (List.replicate 9 0x80 ++ [0x02]) = 9 ∧
      endPlace (List.replicate 9 0x80 ++ [0x02]) = 9 ∧
      ((∃ i, Fault.overflow 9 = .overflow i) ∨ (∃ i limit, Fault.overflow 9 = .tooLong i limit) ∨
        ∃ i consumed, Fault.overflow 9 = .incomplete i consumed) := by
  have h : decode ⟨.reject, some 10⟩ (List.replicate 9 0x80 ++ [0x02]) = .error (.overflow 9) := by
    decide +kernel
  rcases decode_verdict ⟨.reject, some 10⟩ (List.replicate 9 0x80 ++ [0x02]) with
    ⟨hoverflow, -, -, -, hfault⟩
  have hend : endPlace (List.replicate 9 0x80 ++ [0x02]) = 9 := by
    decide +kernel
  exact ⟨h, ((hoverflow 9).mp h).1, hend, hfault _ h⟩

end Base128

import Base128.Proofs.Reads

/-! # Chains of decodings

Decoding a byte string, then what it left over, and so on, gives a chain. It is
the plain meaning of walking a stream: no offsets are kept, and no state.

* `Chain` — the values and lengths of the links, and what is left over.
* `covered` — the number of bytes that links take up.
* `Chain.position` — the links cover exactly what is not left over.
* `chain_iff` — a chain is a front of what `decodeChain` finds, so that it is
  determined by the number of its links (`Chain.unique`).
-/

namespace Base128

/-- Decoding `bytes` again and again gave `links`, and left `rest` over. -/
inductive Chain (settings : Settings) (bytes : Bytes) : List Reading → Bytes → Prop where
  | start : Chain settings bytes [] bytes
  | link {links : List Reading} {value : UInt64} {rest left : Bytes}
      (chain : Chain settings bytes links rest)
      (decodes : decode settings rest = .ok (value, left)) :
      Chain settings bytes (links ++ [⟨value, rest.length - left.length⟩]) left

/-- The number of bytes that links take up. -/
def covered (links : List Reading) : ℕ := (links.map Reading.length).sum

@[simp] theorem covered_nil : covered [] = 0 := rfl

@[simp] theorem covered_concat (links : List Reading) (link : Reading) :
    covered (links ++ [link]) = covered links + link.length := by
  simp [covered]

variable {settings : Settings} {bytes rest : Bytes} {links : List Reading}

/-- What is left over begins where the links end. -/
theorem Chain.position (h : Chain settings bytes links rest) :
    covered links + rest.length = bytes.length ∧ bytes.drop (covered links) = rest := by
  induction h with
  | start => simp
  | link chain decodes ih =>
    have hlength := length_of_decode decodes
    have hdrop := (readFront_of_decode decodes).2
    rw [covered_concat, ← List.drop_drop, ih.2]
    exact ⟨by simp only; omega, hdrop⟩

/-! ## All links -/

theorem decodeChain_of_error {fault : Fault} (h : decode settings bytes = .error fault) :
    decodeChain settings bytes = ([], fault) := by
  rw [decodeChain]
  split
  · rename_i other hother
    rw [h] at hother
    rw [Except.error.inj hother]
  · rename_i hok
    rw [h] at hok
    simp at hok

theorem decodeChain_of_ok {value : UInt64} (h : decode settings bytes = .ok (value, rest)) :
    decodeChain settings bytes =
      ((value, rest) :: (decodeChain settings rest).1, (decodeChain settings rest).2) := by
  rw [decodeChain]
  split
  · rename_i hfault
    rw [h] at hfault
    simp at hfault
  · rename_i other left hok
    rw [h] at hok
    obtain ⟨rfl, rfl⟩ := Prod.mk.inj (Except.ok.inj hok)
    rfl

/-- What is left over behind some of the links that were found on `bytes`. -/
def leftBehind (bytes : Bytes) : List (UInt64 × Bytes) → Bytes
  | [] => bytes
  | (_, rest) :: found => leftBehind rest found

/-- The links that were found on `bytes`, each with its length. -/
def measured (bytes : Bytes) : List (UInt64 × Bytes) → List Reading
  | [] => []
  | (value, rest) :: found => ⟨value, bytes.length - rest.length⟩ :: measured rest found

section Found

variable {found : List (UInt64 × Bytes)} {value : UInt64}

theorem leftBehind_concat (bytes : Bytes) (found : List (UInt64 × Bytes)) (value : UInt64)
    (rest : Bytes) : leftBehind bytes (found ++ [(value, rest)]) = rest := by
  induction found generalizing bytes with
  | nil => rfl
  | cons link found ih => exact ih link.2

theorem measured_concat (bytes : Bytes) (found : List (UInt64 × Bytes)) (value : UInt64)
    (rest : Bytes) :
    measured bytes (found ++ [(value, rest)]) =
      measured bytes found ++ [⟨value, (leftBehind bytes found).length - rest.length⟩] := by
  induction found generalizing bytes with
  | nil => rfl
  | cons link found ih => exact congrArg _ (ih link.2)

theorem length_measured (bytes : Bytes) (found : List (UInt64 × Bytes)) :
    (measured bytes found).length = found.length := by
  induction found generalizing bytes with
  | nil => rfl
  | cons link found ih => exact congrArg (· + 1) (ih link.2)

/-- Behind some of all links are those of what they leave over. -/
theorem decodeChain_split (h : found <+: (decodeChain settings bytes).1) :
    (decodeChain settings bytes).1 =
      found ++ (decodeChain settings (leftBehind bytes found)).1 := by
  induction found generalizing bytes with
  | nil => rfl
  | cons link found ih =>
    cases hdecode : decode settings bytes with
    | error fault => simp [decodeChain_of_error hdecode] at h
    | ok result =>
      obtain ⟨value, rest⟩ := result
      rw [decodeChain_of_ok hdecode, List.cons_prefix_cons] at h
      obtain ⟨rfl, hfound⟩ := h
      rw [decodeChain_of_ok hdecode, List.cons_append]
      exact congrArg _ (ih hfound)

/-- There is one more link just if decoding what is left over succeeds. -/
theorem concat_prefix_iff (h : found <+: (decodeChain settings bytes).1) :
    found ++ [(value, rest)] <+: (decodeChain settings bytes).1 ↔
      decode settings (leftBehind bytes found) = .ok (value, rest) := by
  rw [decodeChain_split h, List.prefix_append_right_inj]
  cases hdecode : decode settings (leftBehind bytes found) with
  | error fault => simp [decodeChain_of_error hdecode]
  | ok result =>
    obtain ⟨first, left⟩ := result
    simp [decodeChain_of_ok hdecode, eq_comm]

end Found

/-- **A chain is a front of all links.** -/
theorem chain_iff :
    Chain settings bytes links rest ↔
      ∃ found, found <+: (decodeChain settings bytes).1 ∧ links = measured bytes found ∧
        rest = leftBehind bytes found := by
  constructor
  · intro h
    induction h with
    | start => exact ⟨[], List.nil_prefix, rfl, rfl⟩
    | @link links value rest left chain decodes ih =>
      obtain ⟨found, hfound, rfl, rfl⟩ := ih
      exact ⟨found ++ [(value, left)], (concat_prefix_iff hfound).mpr decodes,
        (measured_concat ..).symm, (leftBehind_concat ..).symm⟩
  · rintro ⟨found, hfound, rfl, rfl⟩
    induction found using List.reverseRecOn with
    | nil => exact .start
    | append_singleton found link ih =>
      have hfront : found <+: (decodeChain settings bytes).1 :=
        (List.prefix_append found [link]).trans hfound
      rw [measured_concat, leftBehind_concat]
      exact .link (ih hfront) ((concat_prefix_iff hfront).mp hfound)

/-- Two chains with equally many links are the same. -/
theorem Chain.unique {others : List Reading} {other : Bytes} (h : Chain settings bytes links rest)
    (hother : Chain settings bytes others other) (hcount : others.length = links.length) :
    others = links ∧ other = rest := by
  obtain ⟨found, hfound, rfl, rfl⟩ := chain_iff.mp h
  obtain ⟨found', hfound', rfl, rfl⟩ := chain_iff.mp hother
  rw [length_measured, length_measured] at hcount
  -- fronts of one list, and equally long
  have hprefix : found' <+: found := List.prefix_of_prefix_length_le hfound' hfound hcount.le
  obtain rfl := hprefix.eq_of_length hcount
  exact ⟨rfl, rfl⟩

end Base128

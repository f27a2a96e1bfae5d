import Base128.Proofs.Reads

/-! # Calls on a cursor

The ways of reading one value, as one operation. Each of them decodes the bytes
behind the cursor, and they differ only in what they make of the result.

* `Call`, `Answer`, `Cursor.call` — what can be asked, and what comes back. A
  call that fails leaves the cursor at hand in place.
* `Called` — **everything that a call can lead to**, one constructor for each
  way, in terms of decoding.
* `called` — every call goes one of these ways.
-/

namespace Base128

/-- A way of reading one value. -/
inductive Call where
  | read
  | readField
  | readNarrow (width : Width)
  | next
deriving DecidableEq, Repr

/-- What a call comes back with. -/
inductive Answer where
  | value (value : UInt64)
  | field (field : Field)
  | fault (fault : Fault)
  /-- The sequence of items is over. -/
  | ended
deriving DecidableEq, Repr

/-- The call has read a value. -/
def Answer.succeeded : Answer → Bool
  | value _ | field _ => true
  | fault _ | ended => false

/-- What a call answers that has read `field`: some calls say where. -/
def Call.success (field : Field) : Call → Answer
  | .read | .readNarrow _ => .value field.value
  | .readField | .next => .field field

@[simp] theorem Call.succeeded_success (call : Call) (field : Field) :
    (call.success field).succeeded = true := by
  cases call <;> rfl

namespace Cursor

/-- The answer to a direct read, and the cursor after it. -/
def settle {α : Type} (cursor : Cursor) (answer : α → Answer) :
    Except Fault (α × Cursor) → Answer × Cursor
  | .error fault => (.fault fault, cursor)
  | .ok (result, after) => (answer result, after)

/-- The answer to a call, and the cursor after it. -/
def call (cursor : Cursor) : Call → Answer × Cursor
  | .read => cursor.settle .value cursor.read
  | .readField => cursor.settle .field cursor.readField
  | .readNarrow width => cursor.settle .value (cursor.readNarrow width)
  | .next =>
    match cursor.next with
    | none => (.ended, cursor)
    | some (.error fault, after) => (.fault fault, after)
    | some (.ok field, after) => (.field field, after)

end Cursor

/-- What a call can lead to. -/
inductive Called (cursor : Cursor) : Call → Answer → Cursor → Prop where
  /-- The value is read, and the cursor moves behind it. -/
  | success {call : Call} {value : UInt64} {rest : Bytes}
      (decodes : decode cursor.settings cursor.unread = .ok (value, rest))
      (narrow : ∀ width, call = .readNarrow width → value.toNat ≤ width.largest) :
      Called cursor call (call.success (cursor.fieldTo rest value)) (cursor.skipTo rest)
  /-- The value is there, but not as narrow as asked for. -/
  | tooLarge {width : Width} {value : UInt64} {rest : Bytes}
      (decodes : decode cursor.settings cursor.unread = .ok (value, rest))
      (large : width.largest < value.toNat) :
      Called cursor (.readNarrow width) (.fault (.valueTooLarge cursor.offset value width)) cursor
  /-- A direct read fails. -/
  | failed {call : Call} {cause : Fault} (direct : call ≠ .next)
      (fails : decode cursor.settings cursor.unread = .error cause) :
      Called cursor call (.fault (cause.rebase cursor.offset)) cursor
  /-- The sequence of items ends with a fault. -/
  | stopped {cause : Fault} (fails : decode cursor.settings cursor.unread = .error cause) :
      Called cursor .next (.fault (cause.rebase cursor.offset)) { cursor with ended := true }
  /-- The sequence of items has ended before. -/
  | ended (done : cursor.ended = true ∨ cursor.unread = []) : Called cursor .next .ended cursor

/-- A direct read fails where decoding does, and leaves the cursor in place. -/
theorem Cursor.call_of_error {cursor : Cursor} {call : Call} {cause : Fault}
    (hdirect : call ≠ .next) (h : decode cursor.settings cursor.unread = .error cause) :
    cursor.call call = (.fault (cause.rebase cursor.offset), cursor) := by
  have hread := readField_of_error h
  cases call with
  | next => exact absurd rfl hdirect
  | read =>
    unfold Cursor.call Cursor.read
    rw [hread]
    rfl
  | readField =>
    unfold Cursor.call
    rw [hread]
    rfl
  | readNarrow width =>
    unfold Cursor.call Cursor.readNarrow
    rw [hread]
    rfl

/-- Every call goes one of these ways. -/
theorem called (cursor : Cursor) (call : Call) :
    Called cursor call (cursor.call call).1 (cursor.call call).2 := by
  by_cases hitem : call = .next
  · -- an item, which may have been over before
    subst hitem
    unfold Cursor.call
    rcases cursor.next_cases with ⟨hover, hnext⟩ | ⟨-, -, cause, hdecode, hnext⟩ |
      ⟨-, value, rest, hdecode, hnext⟩
    · rw [hnext]
      exact .ended hover
    · rw [hnext]
      exact .stopped hdecode
    · rw [hnext]
      exact .success hdecode (by simp)
  · cases hdecode : decode cursor.settings cursor.unread with
    | error cause =>
      rw [Cursor.call_of_error hitem hdecode]
      exact .failed hitem hdecode
    | ok result =>
      rcases result with ⟨value, rest⟩
      cases call with
      | next => exact absurd rfl hitem
      | read =>
        rw [Cursor.call, Cursor.read, Cursor.readField_of_ok hdecode]
        exact .success hdecode (by simp)
      | readField =>
        rw [Cursor.call, Cursor.readField_of_ok hdecode]
        exact .success hdecode (by simp)
      | readNarrow width =>
        rw [Cursor.call, Cursor.readNarrow_of_ok hdecode]
        -- the one call that can still refuse the value
        split_ifs with hfits
        · refine .success hdecode ?_
          intro other heq
          rwa [← Call.readNarrow.inj heq]
        · exact .tooLarge hdecode (Nat.lt_of_not_le hfits)

namespace Called

variable {cursor after : Cursor} {call : Call} {answer : Answer}

/-- A call that reads nothing leaves the cursor where it was. -/
theorem stays (h : Called cursor call answer after) (hfail : answer.succeeded = false) :
    after.offset = cursor.offset ∧ after.unread = cursor.unread := by
  cases h with
  | success decodes narrow => simp at hfail
  | tooLarge decodes large => exact ⟨rfl, rfl⟩
  | failed direct fails => exact ⟨rfl, rfl⟩
  | stopped fails => exact ⟨rfl, rfl⟩
  | ended done => exact ⟨rfl, rfl⟩

/-- Where decoding fails, a call says so, or that the items are over. -/
theorem of_error (h : Called cursor call answer after) {cause : Fault}
    (hdecode : decode cursor.settings cursor.unread = .error cause) :
    answer = .fault (cause.rebase cursor.offset) ∨ (call = .next ∧ answer = .ended) := by
  cases h with
  | success decodes narrow => simp [decodes] at hdecode
  | tooLarge decodes large => simp [decodes] at hdecode
  | failed direct fails =>
    rw [fails] at hdecode
    rw [Except.error.inj hdecode]
    exact Or.inl rfl
  | stopped fails =>
    rw [fails] at hdecode
    rw [Except.error.inj hdecode]
    exact Or.inl rfl
  | ended done => exact Or.inr ⟨rfl, rfl⟩

/-- Where decoding succeeds, so does a call that can take the value, unless the
items are over. -/
theorem of_ok (h : Called cursor call answer after) {value : UInt64} {rest : Bytes}
    (hdecode : decode cursor.settings cursor.unread = .ok (value, rest))
    (hnarrow : ∀ width, call = .readNarrow width → value.toNat ≤ width.largest)
    (hlive : cursor.ended = false) :
    answer = call.success (cursor.fieldTo rest value) ∧ after = cursor.skipTo rest := by
  cases h with
  | success decodes narrow =>
    rw [decodes] at hdecode
    obtain ⟨rfl, rfl⟩ := Prod.mk.inj (Except.ok.inj hdecode)
    exact ⟨rfl, rfl⟩
  | tooLarge decodes large =>
    rw [decodes] at hdecode
    obtain ⟨rfl, rfl⟩ := Prod.mk.inj (Except.ok.inj hdecode)
    have hle := hnarrow _ rfl
    omega
  | failed direct fails => simp [fails] at hdecode
  | stopped fails => simp [fails] at hdecode
  | ended done =>
    -- only an empty rest is left as a reason, and that does not decode
    rcases done with hended | hunread
    · simp [hended] at hlive
    · exact absurd hunread (ne_nil_of_decode hdecode)

/-- A call fails for one of two reasons. -/
theorem cause {fault : Fault} (h : Called cursor call (.fault fault) after) :
    (∃ cause, decode cursor.settings cursor.unread = .error cause ∧
        fault = cause.rebase cursor.offset) ∨
      ∃ width value rest, call = .readNarrow width ∧
        decode cursor.settings cursor.unread = .ok (value, rest) ∧
        width.largest < value.toNat ∧ fault = .valueTooLarge cursor.offset value width := by
  -- the answer has to be a variable before the cases can be told apart
  generalize hanswer : Answer.fault fault = answer at h
  cases h with
  | success decodes narrow => cases call <;> simp [Call.success] at hanswer
  | tooLarge decodes large =>
    exact Or.inr ⟨_, _, _, rfl, decodes, large, Answer.fault.inj hanswer⟩
  | failed direct fails => exact Or.inl ⟨_, fails, Answer.fault.inj hanswer⟩
  | stopped fails => exact Or.inl ⟨_, fails, Answer.fault.inj hanswer⟩
  | ended done => simp at hanswer

end Called

end Base128

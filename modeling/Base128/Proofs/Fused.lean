import Base128.Proofs.Calls

/-! # Items that are over

One cursor is called in any order: direct reads of every kind, and asking for
the next item. The sequence of items has a memory, direct reads have none, and
the two do not get in each other's way.

* `Cursor.answered`, `Cursor.afterCalls` — calls made one after another, with
  their answers, and the cursor behind them.
* `Cursor.Over` — no item is to come. Every call keeps it, so the sequence of
  items **never starts again**.
* `Cursor.Trapped` — the items have ended with a fault. Such a cursor is a fixed
  point of every call: it stays, and each direct read fails with that fault.
* `Cursor.ended_call_iff` — nothing else than a fault among the items ends them.
* `yielded` — the items among answers. There are no more of them than bytes.
* `Cursor.Fused`, `items_fused` — what this says to a caller, whatever was called
  before.
-/

namespace Base128

/-- The item that an answer stands for, if it is the answer to `next`. -/
def Answer.item? : Answer → Option Item
  | .field found => some (.ok found)
  | .fault cause => some (.error cause)
  | .value _ | .ended => none

/-- The items among answers. A direct read gives none, whatever it answers. -/
def yielded (log : List (Call × Answer)) : List Item :=
  log.filterMap fun entry => if entry.1 = .next then entry.2.item? else none

theorem yielded_cons_next (answer : Answer) (log : List (Call × Answer)) :
    yielded ((.next, answer) :: log) = answer.item?.toList ++ yielded log := by
  unfold yielded
  cases hitem : answer.item? with
  | none => simp [hitem]
  | some item => simp [hitem]

theorem yielded_cons_direct {call : Call} (hdirect : call ≠ .next) (answer : Answer)
    (log : List (Call × Answer)) : yielded ((call, answer) :: log) = yielded log := by
  simp [yielded, hdirect]

namespace Cursor

/-- Calls made one after another, each with its answer. -/
def answered (cursor : Cursor) : List Call → List (Call × Answer)
  | [] => []
  | call :: calls => (call, (cursor.call call).1) :: (cursor.call call).2.answered calls

/-- The cursor behind calls made one after another. -/
def afterCalls (cursor : Cursor) : List Call → Cursor
  | [] => cursor
  | call :: calls => (cursor.call call).2.afterCalls calls

variable {cursor : Cursor}

/-! ## One call -/

/-- Everything that asking for an item can lead to. -/
theorem call_next_cases (cursor : Cursor) :
    ((cursor.ended = true ∨ cursor.unread = []) ∧ cursor.call .next = (.ended, cursor)) ∨
      (cursor.ended = false ∧ cursor.unread ≠ [] ∧ ∃ cause,
        decode cursor.settings cursor.unread = .error cause ∧
        cursor.call .next =
          (.fault (cause.rebase cursor.offset), { cursor with ended := true })) ∨
      (cursor.ended = false ∧ ∃ value rest,
        decode cursor.settings cursor.unread = .ok (value, rest) ∧
        cursor.call .next = (.field (cursor.fieldTo rest value), cursor.skipTo rest)) := by
  unfold call
  rcases cursor.next_cases with ⟨hover, hnext⟩ | ⟨hlive, hunread, cause, hdecode, hnext⟩ |
    ⟨hlive, value, rest, hdecode, hnext⟩
  · rw [hnext]
    exact Or.inl ⟨hover, rfl⟩
  · rw [hnext]
    exact Or.inr (Or.inl ⟨hlive, hunread, cause, hdecode, rfl⟩)
  · rw [hnext]
    exact Or.inr (Or.inr ⟨hlive, value, rest, hdecode, rfl⟩)

/-- A direct read either fails and leaves the cursor in place, or moves it on. -/
theorem call_direct_cases {call : Call} (hdirect : call ≠ .next) :
    (cursor.call call).2 = cursor ∨
      ∃ value rest, decode cursor.settings cursor.unread = .ok (value, rest) ∧
        (cursor.call call).2 = cursor.skipTo rest := by
  have hcalled := called cursor call
  -- the cases need the answer and the cursor as variables
  generalize (cursor.call call).1 = answer at hcalled
  generalize (cursor.call call).2 = after at hcalled ⊢
  cases hcalled with
  | success decodes narrow => exact Or.inr ⟨_, _, decodes, rfl⟩
  | tooLarge decodes large => exact Or.inl rfl
  | failed direct fails => exact Or.inl rfl
  | stopped fails => exact absurd rfl hdirect
  | ended done => exact absurd rfl hdirect

/-- **What ends the items.** They have ended after a call if they had before, or
if the call asked for an item and got a fault. -/
theorem ended_call_iff (cursor : Cursor) (call : Call) :
    (cursor.call call).2.ended = true ↔
      cursor.ended = true ∨ (call = .next ∧ ∃ fault, (cursor.call call).1 = .fault fault) := by
  by_cases hitem : call = .next
  · subst hitem
    rcases cursor.call_next_cases with ⟨-, hcall⟩ | ⟨-, -, cause, -, hcall⟩ |
      ⟨-, value, rest, -, hcall⟩
    · simp [hcall]
    · simp [hcall]
    · simp [hcall]
  · -- a direct read does not look at the flag
    have hsame : (cursor.call call).2.ended = cursor.ended := by
      rcases cursor.call_direct_cases hitem with hstay | ⟨value, rest, -, hmove⟩
      · rw [hstay]
      · rw [hmove, skipTo_ended]
    simp [hsame, hitem]

/-! ## No item is to come -/

/-- No item is to come: no byte is left, or a fault was among the items. -/
def Over (cursor : Cursor) : Prop := cursor.ended = true ∨ cursor.unread = []

/-- Asking for an item then changes nothing. -/
theorem Over.call_next (h : cursor.Over) : cursor.call .next = (.ended, cursor) := by
  rcases cursor.call_next_cases with ⟨-, hcall⟩ | ⟨hlive, hunread, -⟩ |
    ⟨hlive, value, rest, hdecode, -⟩
  · exact hcall
  · rcases h with hended | hnil
    · simp [hlive] at hended
    · exact absurd hnil hunread
  · rcases h with hended | hnil
    · simp [hlive] at hended
    · exact absurd hnil (ne_nil_of_decode hdecode)

/-- Items that are over stay so, whatever is called. -/
theorem Over.call (h : cursor.Over) (call : Call) : (cursor.call call).2.Over := by
  by_cases hitem : call = .next
  · rw [hitem, h.call_next]
    exact h
  · rcases cursor.call_direct_cases hitem with hstay | ⟨value, rest, hdecode, hmove⟩
    · rw [hstay]
      exact h
    · -- a value was read, so there were bytes, and it is the flag that stays
      rcases h with hended | hnil
      · rw [hmove]
        exact Or.inl hended
      · exact absurd hnil (ne_nil_of_decode hdecode)

theorem Over.afterCalls (h : cursor.Over) (calls : List Call) :
    (cursor.afterCalls calls).Over := by
  induction calls generalizing cursor with
  | nil => exact h
  | cons call calls ih => exact ih (h.call call)

/-- Items that are over give no more of them. -/
theorem Over.yielded_eq_nil (h : cursor.Over) (calls : List Call) :
    yielded (cursor.answered calls) = [] := by
  induction calls generalizing cursor with
  | nil => rfl
  | cons call calls ih =>
    rw [answered]
    by_cases hitem : call = .next
    · subst hitem
      rw [yielded_cons_next, ih (h.call .next), h.call_next]
      rfl
    · rw [yielded_cons_direct hitem, ih (h.call call)]

/-- An answer that is a fault, or nothing, is the last one to be an item. -/
theorem over_of_call_next (h : (cursor.call .next).1 = .ended ∨
    ∃ fault, (cursor.call .next).1 = .fault fault) : (cursor.call .next).2.Over := by
  rcases cursor.call_next_cases with ⟨hover, hcall⟩ | ⟨-, -, cause, -, hcall⟩ |
    ⟨-, value, rest, -, hcall⟩
  · rw [hcall]
    exact hover
  · rw [hcall]
    exact Or.inl rfl
  · simp [hcall] at h

/-! ## A fault among the items -/

/-- The items have ended with `fault`, and the cursor stands before the value
that it is about. -/
structure Trapped (cursor : Cursor) (fault : Fault) : Prop where
  ended : cursor.ended = true
  unread_ne : cursor.unread ≠ []
  fails : ∃ cause, decode cursor.settings cursor.unread = .error cause ∧
    fault = cause.rebase cursor.offset

/-- A fault among the items is a trap. -/
theorem trapped_of_call_next {fault : Fault} (h : (cursor.call .next).1 = .fault fault) :
    (cursor.call .next).2.Trapped fault ∧
      (cursor.call .next).2 = { cursor with ended := true } := by
  rcases cursor.call_next_cases with ⟨-, hcall⟩ | ⟨-, hunread, cause, hdecode, hcall⟩ |
    ⟨-, value, rest, -, hcall⟩
  · simp [hcall] at h
  · rw [hcall] at h ⊢
    exact ⟨⟨rfl, hunread, cause, hdecode, (Answer.fault.inj h).symm⟩, rfl⟩
  · simp [hcall] at h

namespace Trapped

variable {fault : Fault}

theorem call_direct (h : cursor.Trapped fault) {call : Call} (hdirect : call ≠ .next) :
    cursor.call call = (.fault fault, cursor) := by
  rcases h.fails with ⟨cause, hdecode, rfl⟩
  exact call_of_error hdirect hdecode

/-- **The trap.** No call moves the cursor, or changes anything else of it. -/
theorem call_snd (h : cursor.Trapped fault) (call : Call) : (cursor.call call).2 = cursor := by
  by_cases hitem : call = .next
  · have hover : cursor.Over := Or.inl h.ended
    rw [hitem, hover.call_next]
  · rw [h.call_direct hitem]

theorem afterCalls_eq (h : cursor.Trapped fault) (calls : List Call) :
    cursor.afterCalls calls = cursor := by
  induction calls with
  | nil => rfl
  | cons call calls ih => rw [afterCalls, h.call_snd, ih]

end Trapped

/-! ## Items are live until then -/

/-- The items have ended exactly where a fault was among them. -/
theorem ended_afterCalls_iff (cursor : Cursor) (calls : List Call) :
    (cursor.afterCalls calls).ended = true ↔
      cursor.ended = true ∨ ∃ fault, (.next, .fault fault) ∈ cursor.answered calls := by
  induction calls generalizing cursor with
  | nil => simp [afterCalls, answered]
  | cons call calls ih =>
    rw [afterCalls, ih, ended_call_iff, answered]
    simp only [List.mem_cons, Prod.mk.injEq, exists_or, or_assoc]
    -- the first call is one of the entries, with the sides of an equation turned
    have hfirst : (call = .next ∧ ∃ fault, (cursor.call call).1 = .fault fault) ↔
        ∃ fault, .next = call ∧ .fault fault = (cursor.call call).1 := by
      simp [eq_comm]
    rw [hfirst]

/-- Where bytes are left and no fault was among the items, there is an item. -/
theorem exists_item (hlive : cursor.ended = false) (hunread : cursor.unread ≠ []) :
    ∃ item, (cursor.call .next).1.item? = some item := by
  rcases cursor.call_next_cases with ⟨hover, -⟩ | ⟨-, -, cause, -, hcall⟩ |
    ⟨-, value, rest, -, hcall⟩
  · simp [hlive, hunread] at hover
  · exact ⟨.error (cause.rebase cursor.offset), by rw [hcall]; rfl⟩
  · exact ⟨.ok (cursor.fieldTo rest value), by rw [hcall]; rfl⟩

/-! ## How many items there are -/

/-- **The step law of items.** Asked for an item, a cursor has none to give any
more, or gives a fault as the last one, or gives a field and has fewer bytes. -/
theorem yielded_next_cases (cursor : Cursor) (calls : List Call) :
    yielded (cursor.answered (.next :: calls)) = [] ∨
      (∃ fault, cursor.unread ≠ [] ∧
        yielded (cursor.answered (.next :: calls)) = [.error fault]) ∨
      ∃ field, ∃ after : Cursor, after.unread.length < cursor.unread.length ∧
        yielded (cursor.answered (.next :: calls)) =
          .ok field :: yielded (after.answered calls) := by
  rw [answered, yielded_cons_next]
  rcases cursor.call_next_cases with ⟨hover, hcall⟩ | ⟨-, hunread, cause, -, hcall⟩ |
    ⟨-, value, rest, hdecode, hcall⟩
  · have hcursor : cursor.Over := hover
    rw [hcall, hcursor.yielded_eq_nil]
    exact Or.inl rfl
  · have hafter : Over { cursor with ended := true } := Or.inl rfl
    rw [hcall, hafter.yielded_eq_nil]
    exact Or.inr (Or.inl ⟨_, hunread, rfl⟩)
  · rw [hcall]
    exact Or.inr (Or.inr ⟨_, cursor.skipTo rest, length_of_decode hdecode, rfl⟩)

/-- A direct read does not make more bytes. -/
theorem length_unread_call_le {call : Call} (hdirect : call ≠ .next) :
    (cursor.call call).2.unread.length ≤ cursor.unread.length := by
  rcases cursor.call_direct_cases hdirect with hstay | ⟨value, rest, hdecode, hmove⟩
  · rw [hstay]
  · have hless := length_of_decode hdecode
    rw [hmove, skipTo_unread]
    omega

/-- Each item takes up a byte, so there are no more of them than bytes. -/
theorem length_yielded_le (cursor : Cursor) (calls : List Call) :
    (yielded (cursor.answered calls)).length ≤ cursor.unread.length := by
  induction calls generalizing cursor with
  | nil => exact Nat.zero_le _
  | cons call calls ih =>
    by_cases hitem : call = .next
    · subst hitem
      rcases cursor.yielded_next_cases calls with hnone | ⟨fault, hunread, hlast⟩ |
        ⟨field, after, hless, hmore⟩
      · rw [hnone]
        exact Nat.zero_le _
      · rw [hlast]
        exact List.length_pos_of_ne_nil hunread
      · have hbehind := ih after
        rw [hmore, List.length_cons]
        omega
    · have hbehind := ih (cursor.call call).2
      have hle := cursor.length_unread_call_le hitem
      rw [answered, yielded_cons_direct hitem]
      omega

/-- Only the last item can be a fault. -/
theorem ok_of_mem_dropLast_yielded (cursor : Cursor) (calls : List Call) :
    ∀ item ∈ (yielded (cursor.answered calls)).dropLast, ∃ field, item = .ok field := by
  induction calls generalizing cursor with
  | nil => simp [answered, yielded]
  | cons call calls ih =>
    by_cases hitem : call = .next
    · subst hitem
      intro item hmem
      rcases cursor.yielded_next_cases calls with hnone | ⟨fault, -, hlast⟩ |
        ⟨field, after, -, hmore⟩
      · simp [hnone] at hmem
      · simp [hlast] at hmem
      · -- a field is the last item itself, or stands before all others
        rw [hmore] at hmem
        cases hbehind : yielded (after.answered calls) with
        | nil => simp [hbehind] at hmem
        | cons next items =>
          rw [hbehind, List.dropLast_cons_cons, ← hbehind] at hmem
          rcases List.mem_cons.mp hmem with rfl | hmem
          · exact ⟨field, rfl⟩
          · exact ih after item hmem
    · rw [answered, yielded_cons_direct hitem]
      exact ih (cursor.call call).2

end Cursor

/-! ## What a caller can rely on -/

/-- What holds of a cursor that was new on `bytes`, and on which the calls
`before` have been made. -/
structure Cursor.Fused (settings : Settings) (bytes : Bytes) (before : List Call)
    (cursor : Cursor) : Prop where
  /-- Once the items are over, or one of them was a fault, they stay over,
  whatever is called in between. -/
  stays_over : ((cursor.call .next).1 = .ended ∨ ∃ fault, (cursor.call .next).1 = .fault fault) →
    ∀ between, (((cursor.call .next).2.afterCalls between).call .next).1 = .ended
  /-- Once an item was a fault, the cursor never moves again, and it stands before
  bytes. -/
  stays_put : ∀ fault, (cursor.call .next).1 = .fault fault →
    ∀ between, ((cursor.call .next).2.afterCalls between).offset = cursor.offset ∧
      ((cursor.call .next).2.afterCalls between).unread = cursor.unread ∧
      ((cursor.call .next).2.afterCalls between).unread ≠ []
  /-- Every direct read then fails with this very fault. -/
  fails_alike : ∀ fault, (cursor.call .next).1 = .fault fault →
    ∀ between call, call ≠ .next →
      (((cursor.call .next).2.afterCalls between).call call).1 = .fault fault
  /-- As long as no item was a fault, there is an item wherever there are bytes,
  whether or not direct reads have failed. -/
  live : (∀ fault, (.next, .fault fault) ∉ (Cursor.ofBytes settings bytes).answered before) →
    cursor.unread ≠ [] → ∃ item, (cursor.call .next).1.item? = some item
  /-- There are no more items to come than bytes. -/
  length_le : ∀ behind, (yielded (cursor.answered behind)).length ≤ cursor.unread.length
  /-- Only the last of them can be a fault. -/
  fault_last : ∀ behind, ∀ item ∈ (yielded (cursor.answered behind)).dropLast,
    ∃ field, item = .ok field

/-- **Items are fused.** However direct reads and items are mixed on a cursor, the
items stop at the first fault and never start again, a fault among them holds the
cursor where it is for good, and nothing but such a fault stops them before the
bytes are used up. -/
theorem items_fused (settings : Settings) (bytes : Bytes) (before : List Call) :
    ((Cursor.ofBytes settings bytes).afterCalls before).Fused settings bytes before where
  stays_over := by
    intro hlast between
    have hover := (Cursor.over_of_call_next hlast).afterCalls between
    rw [hover.call_next]
  stays_put := by
    intro fault hfault between
    rcases Cursor.trapped_of_call_next hfault with ⟨htrapped, hcall⟩
    have hunread := htrapped.unread_ne
    rw [htrapped.afterCalls_eq between]
    rw [hcall] at hunread ⊢
    exact ⟨rfl, rfl, hunread⟩
  fails_alike := by
    intro fault hfault between call hdirect
    have htrapped := (Cursor.trapped_of_call_next hfault).1
    rw [htrapped.afterCalls_eq between, htrapped.call_direct hdirect]
  live := by
    intro hnone hunread
    have hlive : ((Cursor.ofBytes settings bytes).afterCalls before).ended = false := by
      rw [Bool.eq_false_iff, ne_eq, Cursor.ended_afterCalls_iff]
      rintro (hstart | ⟨fault, hmem⟩)
      · simp [Cursor.ofBytes] at hstart
      · exact hnone fault hmem
    exact Cursor.exists_item hlive hunread
  length_le := fun behind => Cursor.length_yielded_le _ behind
  fault_last := fun behind => Cursor.ok_of_mem_dropLast_yielded _ behind

/-- A narrow read fails for a large value, which does not end the items: the value
is the next one of them. The item behind it is a fault, and from then on there is
no item, and every direct read fails with that fault. -/
theorem items_fused_trap :
    (Cursor.ofBytes {} [0x07, 0x80, 0x80, 0x80, 0x80, 0x10, 0x80]).answered
        [.read, .readNarrow .bits32, .next] =
      [(.read, .value 7), (.readNarrow .bits32, .fault (.valueTooLarge 1 0x100000000 .bits32)),
        (.next, .field ⟨1, 5, 0x100000000⟩)] ∧
    (Cursor.ofBytes {} [0x07, 0x80, 0x80, 0x80, 0x80, 0x10, 0x80]).afterCalls
        [.read, .readNarrow .bits32, .next] = ⟨6, [0x80], {}, false⟩ ∧
    (∃ item, ((⟨6, [0x80], {}, false⟩ : Cursor).call .next).1.item? = some item) ∧
    ((⟨6, [0x80], {}, false⟩ : Cursor).call .next).1 = .fault (.incomplete 6 1) ∧
    ((((⟨6, [0x80], {}, false⟩ : Cursor).call .next).2.afterCalls [.read, .next]).call .next).1 =
      .ended ∧
    ((((⟨6, [0x80], {}, false⟩ : Cursor).call .next).2.afterCalls [.read, .next]).call
      (.readNarrow .bits32)).1 = .fault (.incomplete 6 1) := by
  have hlog : (Cursor.ofBytes {} [0x07, 0x80, 0x80, 0x80, 0x80, 0x10, 0x80]).answered
        [.read, .readNarrow .bits32, .next] =
      [(.read, .value 7), (.readNarrow .bits32, .fault (.valueTooLarge 1 0x100000000 .bits32)),
        (.next, .field ⟨1, 5, 0x100000000⟩)] := by
    decide +kernel
  have hcursor : (Cursor.ofBytes {} [0x07, 0x80, 0x80, 0x80, 0x80, 0x10, 0x80]).afterCalls
      [.read, .readNarrow .bits32, .next] = ⟨6, [0x80], {}, false⟩ := by
    decide +kernel
  have hfault : ((⟨6, [0x80], {}, false⟩ : Cursor).call .next).1 = .fault (.incomplete 6 1) := by
    decide +kernel
  have hfused := items_fused {} [0x07, 0x80, 0x80, 0x80, 0x80, 0x10, 0x80]
    [.read, .readNarrow .bits32, .next]
  rw [hcursor] at hfused
  refine ⟨hlog, hcursor, hfused.live ?_ (by decide), hfault,
    hfused.stays_over (Or.inr ⟨_, hfault⟩) _, hfused.fails_alike _ hfault _ _ (by decide)⟩
  intro fault
  rw [hlog]
  simp

end Base128

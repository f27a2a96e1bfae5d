import Base128.Cursor.Session
import Base128.Proofs.Reader

/-! # Narrow reads

A value can be asked for with a width. A wider one is refused, although its bytes are as
good as any: the read has found it, and moved on, before it knows. So it has to go back,
and nothing of it may be left. Whoever reads next finds **the same value at the same
place**, whichever way the session came there.

* `Cursor.EndedByFault` — the invariant: items have ended at a fault, and the cursor
  stands before it. A cursor before a good value is therefore live.
* `Session.perform_cases` — all that a request does to a session.
* `Session.KeepsFaults` — the invariant of all its cursors, kept by every request and so
  by any number of them.
* `Session.ReadsNarrow` — a narrow read next to the read of a field in the same session.
* `Reader.SetsBack` — the same of a reader that moves its position, and sets it back.
* `narrow_reads` — both of them, after any requests.
-/

namespace Base128

/-! ## Why items have ended -/

namespace Cursor

variable {cursor : Cursor}

/-- Where the items have ended, the cursor stands before the fault that ended them. -/
def EndedByFault (cursor : Cursor) : Prop :=
  cursor.ended = true → ∃ fault, cursor.Trapped fault

theorem EndedByFault.ofBytes (settings : Settings) (bytes : Bytes) :
    (ofBytes settings bytes).EndedByFault := by
  intro hended
  simp [Cursor.ofBytes] at hended

/-- A call ends the items at a fault, or not at all. -/
theorem EndedByFault.call (h : cursor.EndedByFault) (call : Call) :
    (cursor.call call).2.EndedByFault := by
  intro hended
  rcases (cursor.ended_call_iff call).mp hended with hbefore | ⟨rfl, fault, hfault⟩
  · obtain ⟨fault, htrapped⟩ := h hbefore
    rw [htrapped.call_snd]
    exact ⟨fault, htrapped⟩
  · exact ⟨fault, (trapped_of_call_next hfault).1⟩

theorem EndedByFault.afterCalls (h : cursor.EndedByFault) (calls : List Call) :
    (cursor.afterCalls calls).EndedByFault := by
  induction calls generalizing cursor with
  | nil => exact h
  | cons call calls ih => exact ih (h.call call)

/-- Before a value that can be read, items have not ended. -/
theorem EndedByFault.live (h : cursor.EndedByFault) {value : UInt64} {rest : Bytes}
    (hdecode : decode cursor.settings cursor.unread = .ok (value, rest)) :
    cursor.ended = false := by
  rw [Bool.eq_false_iff]
  intro hended
  obtain ⟨fault, htrapped⟩ := h hended
  obtain ⟨cause, hfails, -⟩ := htrapped.fails
  rw [hdecode] at hfails
  simp at hfails

/-- Taking items is calling for one after the other. -/
theorem exists_calls_of_take (cursor : Cursor) (count : ℕ) :
    ∃ calls, (cursor.take count).2 = cursor.afterCalls calls := by
  induction count generalizing cursor with
  | zero => exact ⟨[], rfl⟩
  | succ count ih =>
    rw [take]
    cases hnext : cursor.next with
    | none => exact ⟨[], rfl⟩
    | some result =>
      obtain ⟨item, after⟩ := result
      obtain ⟨calls, hcalls⟩ := ih after
      have hcall : (cursor.call .next).2 = after := by
        cases item <;> simp only [call, hnext]
      refine ⟨.next :: calls, ?_⟩
      rw [afterCalls, hcall]
      exact hcalls

end Cursor

/-! ## Sessions -/

namespace Session

/-- A session with a cursor before the first of `bytes`. -/
def ofBytes (settings : Settings) (bytes : Bytes) : Session where
  cursor := Cursor.ofBytes settings bytes

/-- The session behind requests. -/
def after (session : Session) (requests : List Request) : Session :=
  ((session.run requests).map Prod.snd).getLastD session

theorem after_cons (session : Session) (request : Request) (requests : List Request) :
    session.after (request :: requests) = (session.perform request).2.after requests := by
  simp only [after, run, List.map_cons, List.getLastD_cons]

variable {session : Session}

/-- A direct read in a session does to the cursor what it does without one. -/
theorem settle_snd {α : Type} (session : Session) (answer : α → Answer)
    (outcome : Except Fault (α × Cursor)) :
    (session.settle outcome).2 =
      { session with cursor := (session.cursor.settle answer outcome).2 } := by
  cases outcome <;> rfl

/-- **What a request does to a session.** It makes calls on the cursor, or keeps the
cursor, or takes up the one that was kept last. -/
theorem perform_cases (session : Session) (request : Request) :
    (∃ calls, (session.perform request).2 =
        { session with cursor := session.cursor.afterCalls calls }) ∨
      (session.perform request).2 = { session with kept := session.cursor :: session.kept } ∨
      ∃ cursor kept, session.kept = cursor :: kept ∧
        (session.perform request).2 = { cursor, kept } := by
  cases request with
  | read => exact Or.inl ⟨[.read], session.settle_snd .value _⟩
  | readField => exact Or.inl ⟨[.readField], session.settle_snd .field _⟩
  | readNarrow width => exact Or.inl ⟨[.readNarrow width], session.settle_snd .value _⟩
  | next =>
    refine Or.inl ⟨[.next], ?_⟩
    simp only [perform, Cursor.afterCalls, Cursor.call]
    split <;> rename_i hnext
    · rw [hnext]
    · rename_i item after
      rw [hnext]
      cases item <;> rfl
  | rest =>
    obtain ⟨calls, hcalls⟩ := session.cursor.exists_calls_of_take session.cursor.pending
    refine Or.inl ⟨calls, ?_⟩
    rw [← hcalls, ← Cursor.exhaust_eq_take (le_refl _)]
    rfl
  | take count =>
    obtain ⟨calls, hcalls⟩ := session.cursor.exists_calls_of_take count
    refine Or.inl ⟨calls, ?_⟩
    rw [← hcalls]
    rfl
  | unread => exact Or.inl ⟨[], rfl⟩
  | save => exact Or.inr (Or.inl rfl)
  | restore =>
    simp only [perform]
    split <;> rename_i hkept
    · exact Or.inl ⟨[], rfl⟩
    · exact Or.inr (Or.inr ⟨_, _, hkept, rfl⟩)

/-- Of the cursor in use and of those kept aside, none has ended but at a fault. -/
structure KeepsFaults (session : Session) : Prop where
  cursor : session.cursor.EndedByFault
  kept : ∀ cursor ∈ session.kept, cursor.EndedByFault

/-- **A request keeps the invariant.** -/
theorem KeepsFaults.perform (h : session.KeepsFaults) (request : Request) :
    (session.perform request).2.KeepsFaults := by
  rcases session.perform_cases request with ⟨calls, hmoved⟩ | hsaved |
    ⟨cursor, kept, hkept, hrestored⟩
  · rw [hmoved]
    exact ⟨h.cursor.afterCalls calls, h.kept⟩
  · rw [hsaved]
    exact ⟨h.cursor, List.forall_mem_cons.mpr ⟨h.cursor, h.kept⟩⟩
  · have hall := h.kept
    rw [hkept, List.forall_mem_cons] at hall
    rw [hrestored]
    exact ⟨hall.1, hall.2⟩

/-- **Any number of requests** keep the invariant. -/
theorem KeepsFaults.after (h : session.KeepsFaults) (requests : List Request) :
    (session.after requests).KeepsFaults := by
  induction requests generalizing session with
  | nil => exact h
  | cons request requests ih =>
    rw [after_cons]
    exact ih (h.perform request)

theorem KeepsFaults.ofBytes (settings : Settings) (bytes : Bytes) :
    (ofBytes settings bytes).KeepsFaults where
  cursor := Cursor.EndedByFault.ofBytes settings bytes
  kept := by
    intro cursor hmem
    simp [Session.ofBytes] at hmem

/-! ## Requests that read one value -/

/-- The session with nothing but `rest` left to read. -/
def skipTo (session : Session) (rest : Bytes) : Session :=
  { session with cursor := session.cursor.skipTo rest }

section Reads

variable {value : UInt64} {rest : Bytes} {fault : Fault} {width : Width}

theorem perform_read_of_ok
    (h : decode session.cursor.settings session.cursor.unread = .ok (value, rest)) :
    session.perform .read = (.value (.ok value), session.skipTo rest) := by
  simp only [perform, Cursor.read, Cursor.readField_of_ok h]
  rfl

theorem perform_readField_of_ok
    (h : decode session.cursor.settings session.cursor.unread = .ok (value, rest)) :
    session.perform .readField =
      (.field (.ok (session.cursor.fieldTo rest value)), session.skipTo rest) := by
  simp only [perform, Cursor.readField_of_ok h]
  rfl

theorem perform_readField_of_error
    (h : decode session.cursor.settings session.cursor.unread = .error fault) :
    session.perform .readField =
      (.field (.error (fault.rebase session.cursor.offset)), session) := by
  simp only [perform, Cursor.readField_of_error h]
  rfl

theorem perform_readNarrow_of_ok
    (h : decode session.cursor.settings session.cursor.unread = .ok (value, rest)) :
    session.perform (.readNarrow width) =
      if value.toNat ≤ width.largest then (.value (.ok value), session.skipTo rest)
      else (.value (.error (.valueTooLarge session.cursor.offset value width)), session) := by
  simp only [perform, Cursor.readNarrow_of_ok h]
  split_ifs <;> rfl

theorem perform_readNarrow_of_error
    (h : decode session.cursor.settings session.cursor.unread = .error fault) :
    session.perform (.readNarrow width) =
      (.value (.error (fault.rebase session.cursor.offset)), session) := by
  simp only [perform, Cursor.readNarrow, Cursor.readField_of_error h]
  rfl

/-- A live session gives the value as its next item. -/
theorem perform_next_of_ok (hlive : session.cursor.ended = false)
    (h : decode session.cursor.settings session.cursor.unread = .ok (value, rest)) :
    session.perform .next =
      (.item (some (.ok (session.cursor.fieldTo rest value))), session.skipTo rest) := by
  have hunread : ¬ session.cursor.atEnd = true := by
    rw [Cursor.atEnd_iff]
    exact ne_nil_of_decode h
  have hnext : session.cursor.next =
      some (.ok (session.cursor.fieldTo rest value), session.cursor.skipTo rest) := by
    simp only [Cursor.next, hlive, Bool.false_or, hunread, Cursor.readField_of_ok h]
    rfl
  simp only [perform, hnext]
  rfl

/-- A field that was read is what decodes. -/
theorem decode_of_perform_readField {field : Field} {after : Session}
    (h : session.perform .readField = (.field (.ok field), after)) :
    ∃ rest, decode session.cursor.settings session.cursor.unread = .ok (field.value, rest) ∧
      session.cursor.fieldTo rest field.value = field ∧ session.skipTo rest = after := by
  cases hdecode : decode session.cursor.settings session.cursor.unread with
  | error fault =>
    rw [perform_readField_of_error hdecode] at h
    simp at h
  | ok result =>
    obtain ⟨value, rest⟩ := result
    rw [perform_readField_of_ok hdecode] at h
    obtain ⟨hreply, hafter⟩ := Prod.mk.inj h
    obtain rfl := Except.ok.inj (Reply.field.inj hreply)
    exact ⟨rest, rfl, rfl, hafter⟩

/-- A fault in place of a field is a fault of decoding, and leaves the session. -/
theorem decode_of_perform_readField_error {after : Session}
    (h : session.perform .readField = (.field (.error fault), after)) :
    ∃ cause, decode session.cursor.settings session.cursor.unread = .error cause ∧
      cause.rebase session.cursor.offset = fault ∧ session = after := by
  cases hdecode : decode session.cursor.settings session.cursor.unread with
  | error cause =>
    rw [perform_readField_of_error hdecode] at h
    obtain ⟨hreply, hafter⟩ := Prod.mk.inj h
    exact ⟨cause, rfl, Except.error.inj (Reply.field.inj hreply), hafter⟩
  | ok result =>
    obtain ⟨value, rest⟩ := result
    rw [perform_readField_of_ok hdecode] at h
    simp at h

end Reads

/-! ## Narrow reads -/

/-- What a narrow read does in a session, in terms of what reading the field does in the
same session. Values up to `bound` have the width, and `target` is its name. -/
structure ReadsNarrow (session : Session) (width : Width) (target : String) (bound : ℕ) :
    Prop where
  name_eq : width.name = target
  /-- A value that fits is read, and the session goes on as behind the field. -/
  fits : ∀ field after, session.perform .readField = (.field (.ok field), after) →
    field.value.toNat ≤ bound →
      session.perform (.readNarrow width) = (.value (.ok field.value), after)
  /-- A value that does not fit is a fault, with its place, and the session is the same. -/
  refuses : ∀ field after, session.perform .readField = (.field (.ok field), after) →
    bound < field.value.toNat →
      field.offset = session.cursor.offset ∧
        session.perform (.readNarrow width) =
          (.value (.error (.valueTooLarge field.offset field.value width)), session)
  /-- Whatever reads next then reads that value, there, and goes on behind it. -/
  again : ∀ field after, session.perform .readField = (.field (.ok field), after) →
    bound < field.value.toNat →
      (session.perform (.readNarrow width)).2.perform .read =
          (.value (.ok field.value), after) ∧
        (session.perform (.readNarrow width)).2.perform .readField =
          (.field (.ok field), after) ∧
        (session.perform (.readNarrow width)).2.perform .next =
          (.item (some (.ok field)), after)
  /-- Where the field cannot be read, the fault is the same, and the session too. -/
  fails : ∀ fault after, session.perform .readField = (.field (.error fault), after) →
    session.perform (.readNarrow width) = (.value (.error fault), session)

/-- A session whose items ended at faults reads narrow values as it should. -/
theorem KeepsFaults.readsNarrow (h : session.KeepsFaults) (width : Width) :
    session.ReadsNarrow width width.name width.largest where
  name_eq := rfl
  fits := by
    intro field after hfield hle
    obtain ⟨rest, hdecode, -, rfl⟩ := decode_of_perform_readField hfield
    rw [perform_readNarrow_of_ok hdecode, if_pos hle]
  refuses := by
    intro field after hfield hlarge
    obtain ⟨rest, hdecode, hplace, -⟩ := decode_of_perform_readField hfield
    have hoffset : field.offset = session.cursor.offset := by
      rw [← hplace]
      rfl
    rw [perform_readNarrow_of_ok hdecode, if_neg (not_le.mpr hlarge), hoffset]
    exact ⟨rfl, rfl⟩
  again := by
    intro field after hfield hlarge
    obtain ⟨rest, hdecode, hplace, rfl⟩ := decode_of_perform_readField hfield
    have hsame : (session.perform (.readNarrow width)).2 = session := by
      rw [perform_readNarrow_of_ok hdecode, if_neg (not_le.mpr hlarge)]
    rw [hsame]
    refine ⟨perform_read_of_ok hdecode, hfield, ?_⟩
    -- the items go on, since a fault would have held the cursor before something else
    rw [perform_next_of_ok (h.cursor.live hdecode) hdecode, hplace]
  fails := by
    intro fault after hfield
    obtain ⟨cause, hdecode, rfl, -⟩ := decode_of_perform_readField_error hfield
    exact perform_readNarrow_of_error hdecode

/-- Every value has the full width, so reading it narrowly is reading it. -/
theorem perform_readNarrow_bits64 (session : Session) :
    session.perform (.readNarrow .bits64) = session.perform .read := by
  cases hdecode : decode session.cursor.settings session.cursor.unread with
  | error cause =>
    rw [perform_readNarrow_of_error hdecode]
    simp only [perform, Cursor.read, Cursor.readField_of_error hdecode]
    rfl
  | ok result =>
    obtain ⟨value, rest⟩ := result
    have hle : value.toNat ≤ Width.bits64.largest := Nat.le_of_lt_succ value.toNat_lt
    rw [perform_readNarrow_of_ok hdecode, if_pos hle, perform_read_of_ok hdecode]

/-- And no value is too large for it. -/
theorem perform_readNarrow_bits64_ne (session : Session) (offset : ℕ) (value : UInt64)
    (width : Width) :
    (session.perform (.readNarrow .bits64)).1 ≠
      .value (.error (.valueTooLarge offset value width)) := by
  rw [perform_readNarrow_bits64]
  cases hdecode : decode session.cursor.settings session.cursor.unread with
  | error cause =>
    simp only [perform, Cursor.read, Cursor.readField_of_error hdecode]
    intro hreply
    have hrebase : cause.rebase session.cursor.offset = .valueTooLarge offset value width :=
      Except.error.inj (Reply.value.inj hreply)
    -- decoding has no width to compare with
    rcases decode_error_position hdecode with rfl | ⟨index, rfl, -⟩ | ⟨limit, rfl, -⟩
    · simp [Fault.rebase] at hrebase
    · simp [Fault.rebase] at hrebase
    · simp [Fault.rebase] at hrebase
  | ok result =>
    obtain ⟨decoded, rest⟩ := result
    rw [perform_read_of_ok hdecode]
    simp

end Session

/-! ## In place -/

/-- What a narrow read does to a reader, which moves its position before it knows the
value. -/
structure Reader.SetsBack (reader : Reader) (width : Width) : Prop where
  /-- A value that fits is read, and the reader is as behind the field. -/
  fits : ∀ field after, reader.readField = .ok (.ok field, after) →
    field.value.toNat ≤ width.largest →
      reader.readNarrow width = .ok (.ok field.value, after)
  /-- For a value that does not fit, all of the reader is set back. -/
  refuses : ∀ field after, reader.readField = .ok (.ok field, after) →
    width.largest < field.value.toNat →
      after ≠ reader ∧ field.offset = reader.offset ∧
        reader.readNarrow width =
          .ok (.error (.valueTooLarge field.offset field.value width), reader)
  /-- Where the field cannot be read, the fault is the same, and the reader too. -/
  fails : ∀ fault after, reader.readField = .ok (.error fault, after) →
    reader.readNarrow width = .ok (.error fault, reader)

/-- Setting back the position sets back the reader: a read changes nothing else. -/
theorem Reader.setsBack (reader : Reader) (width : Width) : reader.SetsBack width where
  fits := by
    intro field after hread hle
    rw [readNarrow, hread, Checked.ok_bind]
    exact if_pos hle
  refuses := by
    intro field after hread hlarge
    rcases readField_cases hread with ⟨fault, hfault, -⟩ | ⟨length, value, hlength, hfield, rfl⟩
    · simp at hfault
    · obtain rfl := Except.ok.inj hfield
      refine ⟨?_, rfl, ?_⟩
      · intro hstayed
        have hoffset : reader.offset + length = reader.offset := congrArg Reader.offset hstayed
        omega
      · rw [readNarrow, hread, Checked.ok_bind]
        exact if_neg (not_le.mpr hlarge)
  fails := by
    intro fault after hread
    rcases readField_cases hread with ⟨cause, hfault, rfl⟩ | ⟨length, value, -, hfield, -⟩
    · rw [readNarrow, hread]
      rfl
    · simp at hfield

/-! ## After any requests -/

/-- **Narrow reads.** After any requests, a narrow read of 32 bits gives what reading the
field gives, or refuses it for its size and leaves no trace: the session is the same, and
the next read of any kind finds the value. Every value has 64 bits, so reading with this
width is reading. A reader that moves its position first is set back as a whole. -/
theorem narrow_reads (settings : Settings) (bytes : Bytes) (requests : List Request) :
    ((Session.ofBytes settings bytes).after requests).ReadsNarrow .bits32 "u32" (2 ^ 32 - 1) ∧
      ((Session.ofBytes settings bytes).after requests).ReadsNarrow .bits64 "usize"
        (2 ^ 64 - 1) ∧
      ((Session.ofBytes settings bytes).after requests).perform (.readNarrow .bits64) =
        ((Session.ofBytes settings bytes).after requests).perform .read ∧
      (∀ offset value width,
        (((Session.ofBytes settings bytes).after requests).perform (.readNarrow .bits64)).1 ≠
          .value (.error (.valueTooLarge offset value width))) ∧
      ∀ (reader : Reader) (width : Width), reader.SetsBack width := by
  have hkeeps : ((Session.ofBytes settings bytes).after requests).KeepsFaults :=
    (Session.KeepsFaults.ofBytes settings bytes).after requests
  refine ⟨hkeeps.readsNarrow .bits32, hkeeps.readsNarrow .bits64,
    Session.perform_readNarrow_bits64 _, Session.perform_readNarrow_bits64_ne _, ?_⟩
  intro reader width
  exact reader.setsBack width

/-- The value behind the first one needs 33 bits. It is refused, and it is the next item
after that. -/
theorem narrow_reads_wide :
    ((Session.ofBytes {} [0x07, 0x80, 0x80, 0x80, 0x80, 0x10]).after [.save, .read]).perform
        (.readNarrow .bits32) =
      (.value (.error (.valueTooLarge 1 0x100000000 .bits32)),
        (Session.ofBytes {} [0x07, 0x80, 0x80, 0x80, 0x80, 0x10]).after [.save, .read]) ∧
    ((((Session.ofBytes {} [0x07, 0x80, 0x80, 0x80, 0x80, 0x10]).after [.save, .read]).perform
        (.readNarrow .bits32)).2.perform .next).1 =
      .item (some (.ok ⟨1, 5, 0x100000000⟩)) := by
  have hnarrow := (narrow_reads {} [0x07, 0x80, 0x80, 0x80, 0x80, 0x10] [.save, .read]).1
  have hdecode : decode {} [0x80, 0x80, 0x80, 0x80, 0x10] = .ok (0x100000000, []) := by
    decide +kernel
  have hcursor : ((Session.ofBytes {} [0x07, 0x80, 0x80, 0x80, 0x80, 0x10]).after
      [.save, .read]).cursor = ⟨1, [0x80, 0x80, 0x80, 0x80, 0x10], {}, false⟩ := by
    decide +kernel
  generalize (Session.ofBytes {} [0x07, 0x80, 0x80, 0x80, 0x80, 0x10]).after
    [.save, .read] = session at hnarrow hcursor ⊢
  have hfield : session.perform .readField =
      (.field (.ok ⟨1, 5, 0x100000000⟩), session.skipTo []) := by
    have hhere : decode session.cursor.settings session.cursor.unread = .ok (0x100000000, []) := by
      rw [hcursor]
      exact hdecode
    rw [Session.perform_readField_of_ok hhere, hcursor]
    rfl
  have hlarge : 2 ^ 32 - 1 < (0x100000000 : UInt64).toNat := by decide
  refine ⟨(hnarrow.refuses _ _ hfield hlarge).2, ?_⟩
  rw [(hnarrow.again _ _ hfield hlarge).2.2]

end Base128

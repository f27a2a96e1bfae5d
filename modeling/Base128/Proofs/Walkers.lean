import Base128.Proofs.Calls
import Base128.Proofs.Chain

/-! # Cursors in use refine the chain

Cursors that started on one byte string are called in any order, and copied at
any time; each copy is called on its own from then on. Whatever is done, every
one of them stands on the chain of decodings.

* `Walker` — a cursor, with the calls on its way that have succeeded.
* `Walkers.Action`, `Walkers.run` — calls and copies in any order, on any of
  the walkers.
* `Walker.OnChain` — the invariant: as many calls have succeeded as there are
  links behind the cursor, and a sequence of items has ended only where
  decoding fails.
* `Walker.OnChain.after` — one call keeps the invariant, and by
  `Walkers.run_onChain` so does a run.
* `Walker.Refines`, `Walkers.refine_chain` — what this says to a caller.
-/

namespace Base128

/-- A cursor in use, with the calls that have succeeded on its way and what they
came back with, the first one first. -/
structure Walker where
  cursor : Cursor
  done : List (Call × Answer) := []
deriving DecidableEq, Repr

/-- The walker after one more call. -/
def Walker.after (walker : Walker) (call : Call) : Walker where
  cursor := (walker.cursor.call call).2
  done :=
    if (walker.cursor.call call).1.succeeded
    then walker.done ++ [(call, (walker.cursor.call call).1)] else walker.done

namespace Walkers

/-- What can be done with walkers, by their places in a list. -/
inductive Action where
  | call (index : ℕ) (call : Call)
  /-- Puts a copy behind all others. -/
  | copy (index : ℕ)
deriving DecidableEq, Repr

/-- Does one thing. There is nothing to do at a place with no walker. -/
def perform (walkers : List Walker) : Action → List Walker
  | .call index call =>
    walkers.mapIdx fun i walker => if i = index then walker.after call else walker
  | .copy index => walkers ++ walkers[index]?.toList

/-- The walkers after some actions, of which the first is new on `bytes`. -/
def run (settings : Settings) (bytes : Bytes) (actions : List Action) : List Walker :=
  actions.foldl perform [⟨Cursor.ofBytes settings bytes, []⟩]

end Walkers

/-! ## The invariant -/

namespace Walker

variable {settings : Settings} {bytes : Bytes} {links : List Reading} {walker : Walker}

/-- The walker stands behind `links`, and has got there by reading them. -/
structure OnChain (settings : Settings) (bytes : Bytes) (links : List Reading)
    (walker : Walker) : Prop where
  settings_eq : walker.cursor.settings = settings
  chain : Chain settings bytes links walker.cursor.unread
  offset_eq : walker.cursor.offset = covered links
  count_eq : walker.done.length = links.length
  reported : ∀ (i : ℕ) (link : Reading) (call : Call) (answer : Answer),
    links[i]? = some link → walker.done[i]? = some (call, answer) →
    answer = call.success ⟨covered (links.take i), link.length, link.value⟩
  ended : walker.cursor.ended = true →
    ∃ fault, decode settings walker.cursor.unread = .error fault

/-- A new walker has no links behind it. -/
theorem OnChain.start (settings : Settings) (bytes : Bytes) :
    OnChain settings bytes [] ⟨Cursor.ofBytes settings bytes, []⟩ where
  settings_eq := rfl
  chain := .start
  offset_eq := rfl
  count_eq := rfl
  reported := by simp
  ended := by simp [Cursor.ofBytes]

/-- A call that reads nothing changes no more than that the items have ended. -/
theorem OnChain.of_unmoved (h : OnChain settings bytes links walker) {ended : Bool}
    (hended : ended = true → ∃ fault, decode settings walker.cursor.unread = .error fault) :
    OnChain settings bytes links ⟨{ walker.cursor with ended }, walker.done⟩ where
  settings_eq := h.settings_eq
  chain := h.chain
  offset_eq := h.offset_eq
  count_eq := h.count_eq
  reported := h.reported
  ended := hended

/-- Items have not ended where decoding succeeds. -/
theorem OnChain.not_ended (h : OnChain settings bytes links walker) {value : UInt64}
    {rest : Bytes} (hdecode : decode settings walker.cursor.unread = .ok (value, rest)) :
    walker.cursor.ended = false := by
  rw [Bool.eq_false_iff]
  intro hended
  rcases h.ended hended with ⟨fault, hfault⟩
  rw [hdecode] at hfault
  simp at hfault

/-- A call that reads a value moves the walker behind one more link. -/
theorem OnChain.of_success (h : OnChain settings bytes links walker) {call : Call}
    {value : UInt64} {rest : Bytes}
    (hdecode : decode settings walker.cursor.unread = .ok (value, rest)) :
    OnChain settings bytes (links ++ [⟨value, walker.cursor.unread.length - rest.length⟩])
      ⟨walker.cursor.skipTo rest,
        walker.done ++ [(call, call.success (walker.cursor.fieldTo rest value))]⟩ where
  settings_eq := h.settings_eq
  chain := .link h.chain hdecode
  offset_eq := by simp [h.offset_eq]
  count_eq := by simp [h.count_eq]
  reported := by
    intro i link call' answer hlink hdone
    rcases Nat.lt_or_ge i links.length with hlt | hge
    · -- an old link, reported when it was read
      rw [List.getElem?_append_left hlt] at hlink
      rw [List.getElem?_append_left (by rwa [h.count_eq])] at hdone
      rw [List.take_append_of_le_length (Nat.le_of_lt hlt)]
      exact h.reported i link call' answer hlink hdone
    · -- the new link, reported by this call
      have hi : i = links.length := by
        have hbound := (List.getElem?_eq_some_iff.mp hlink).1
        rw [List.length_append, List.length_singleton] at hbound
        omega
      subst hi
      rw [List.getElem?_concat_length, Option.some.injEq] at hlink
      rw [← h.count_eq, List.getElem?_concat_length, Option.some.injEq, Prod.mk.injEq] at hdone
      obtain ⟨rfl, rfl⟩ := hdone
      rw [← hlink, List.take_left, ← h.offset_eq]
      rfl
  ended := by
    intro hended
    rw [Cursor.skipTo_ended, h.not_ended hdecode] at hended
    simp at hended

/-- The invariant is preserved by every call. -/
theorem OnChain.after (h : OnChain settings bytes links walker) (call : Call) :
    ∃ links', OnChain settings bytes links' (walker.after call) := by
  have hcalled := called walker.cursor call
  unfold Walker.after
  -- the cases need the answer and the cursor as variables
  generalize walker.cursor.call call = result at hcalled ⊢
  rcases result with ⟨answer, cursor⟩
  simp only at hcalled ⊢
  cases hcalled with
  | success decodes narrow =>
    rw [h.settings_eq] at decodes
    exact ⟨_, by simpa using h.of_success decodes⟩
  | tooLarge decodes large => exact ⟨links, h⟩
  | failed direct fails => exact ⟨links, h⟩
  | stopped fails =>
    rw [h.settings_eq] at fails
    exact ⟨links, h.of_unmoved fun _ => ⟨_, fails⟩⟩
  | ended done => exact ⟨links, h⟩

end Walker

/-- The invariant holds of every walker in a run. -/
theorem Walkers.run_onChain (settings : Settings) (bytes : Bytes) (actions : List Action) :
    ∀ walker ∈ run settings bytes actions, ∃ links, walker.OnChain settings bytes links := by
  unfold run
  have hstart : ∀ walker ∈ [(⟨Cursor.ofBytes settings bytes, []⟩ : Walker)],
      ∃ links, walker.OnChain settings bytes links := by
    intro walker hwalker
    rw [List.mem_singleton.mp hwalker]
    exact ⟨[], Walker.OnChain.start settings bytes⟩
  generalize [(⟨Cursor.ofBytes settings bytes, []⟩ : Walker)] = walkers at hstart
  induction actions generalizing walkers with
  | nil => exact hstart
  | cons action actions ih =>
    apply ih
    intro walker hwalker
    -- a walker after an action was there before, or was called, or is a copy
    cases action with
    | call index call =>
      rcases List.mem_mapIdx.mp hwalker with ⟨i, hi, rfl⟩
      rcases hstart _ (List.getElem_mem hi) with ⟨links, hlinks⟩
      split_ifs
      · exact hlinks.after call
      · exact ⟨links, hlinks⟩
    | copy index =>
      rcases List.mem_append.mp hwalker with hold | hnew
      · exact hstart walker hold
      · exact hstart walker (List.mem_of_getElem? (Option.mem_toList.mp hnew))

/-! ## What a caller sees -/

/-- Everything that can be seen of a walker and asked of it is told by the chain
of decodings: `links` are behind it, and decoding what is left over decides
every further call. -/
structure Walker.Refines (settings : Settings) (bytes : Bytes) (links : List Reading)
    (walker : Walker) : Prop where
  /-- The bytes behind the cursor are what the links left over. -/
  chain : Chain settings bytes links walker.cursor.unread
  /-- There are as many links as calls that have succeeded. -/
  count_eq : walker.done.length = links.length
  /-- So the links are the only ones that these calls can have read. -/
  unique : ∀ others rest, Chain settings bytes others rest →
    others.length = walker.done.length → others = links ∧ rest = walker.cursor.unread
  offset_eq : walker.cursor.offset = covered links
  unread_eq : walker.cursor.unread = bytes.drop walker.cursor.offset
  atEnd_iff : walker.cursor.atEnd = true ↔ walker.cursor.unread = []
  /-- Each of these calls came back with its link, in order. -/
  reported : ∀ (i : ℕ) (link : Reading) (call : Call) (answer : Answer),
    links[i]? = some link → walker.done[i]? = some (call, answer) →
    answer = call.success ⟨covered (links.take i), link.length, link.value⟩
  /-- Where decoding succeeds, so does the next call, if it can take the value. -/
  succeeds : ∀ call value rest,
    decode settings walker.cursor.unread = .ok (value, rest) →
    (∀ width, call = .readNarrow width → value.toNat ≤ width.largest) →
    (walker.cursor.call call).1 = call.success
        ⟨walker.cursor.offset, walker.cursor.unread.length - rest.length, value⟩ ∧
      (walker.cursor.call call).2.unread = rest
  /-- Where decoding fails, the next call fails with the same fault, counted
  from the start of the stream. Items may be over instead. -/
  fails : ∀ call cause, decode settings walker.cursor.unread = .error cause →
    (walker.cursor.call call).1 = .fault (cause.rebase walker.cursor.offset) ∨
      (call = .next ∧ (walker.cursor.call call).1 = .ended)
  /-- Nothing else can fail but a narrow read of a value that is too large. -/
  cause : ∀ call fault, (walker.cursor.call call).1 = .fault fault →
    (∃ cause, decode settings walker.cursor.unread = .error cause ∧
        fault = cause.rebase walker.cursor.offset) ∨
      ∃ width value rest, call = .readNarrow width ∧
        decode settings walker.cursor.unread = .ok (value, rest) ∧
        width.largest < value.toNat ∧
        fault = .valueTooLarge walker.cursor.offset value width
  /-- A call that reads nothing moves nothing. -/
  stays : ∀ call, (walker.cursor.call call).1.succeeded = false →
    (walker.cursor.call call).2.offset = walker.cursor.offset ∧
      (walker.cursor.call call).2.unread = walker.cursor.unread

/-- The invariant is all that a caller needs. -/
theorem Walker.OnChain.refines {settings : Settings} {bytes : Bytes} {links : List Reading}
    {walker : Walker} (h : walker.OnChain settings bytes links) :
    walker.Refines settings bytes links where
  chain := h.chain
  count_eq := h.count_eq
  unique := by
    intro others rest hothers hcount
    exact h.chain.unique hothers (hcount.trans h.count_eq)
  offset_eq := h.offset_eq
  unread_eq := by
    rw [h.offset_eq, h.chain.position.2]
  atEnd_iff := Cursor.atEnd_iff
  reported := h.reported
  succeeds := by
    intro call value rest hdecode hnarrow
    have hlive := h.not_ended hdecode
    rw [← h.settings_eq] at hdecode
    rcases (called walker.cursor call).of_ok hdecode hnarrow hlive with ⟨hanswer, hafter⟩
    rw [hanswer, hafter]
    exact ⟨rfl, rfl⟩
  fails := by
    intro call cause hdecode
    rw [← h.settings_eq] at hdecode
    exact (called walker.cursor call).of_error hdecode
  cause := by
    intro call fault hfault
    have hcalled := called walker.cursor call
    rw [hfault] at hcalled
    rw [← h.settings_eq]
    exact hcalled.cause
  stays := by
    intro call hfail
    exact (called walker.cursor call).stays hfail

/-- **Refinement.** Whatever is done with cursors on `bytes`, in any order, and
with copies taken at any time and used again, every one of them refines the
chain of decodings. -/
theorem Walkers.refine_chain (settings : Settings) (bytes : Bytes) (actions : List Action) :
    ∀ walker ∈ run settings bytes actions, ∃ links, walker.Refines settings bytes links := by
  intro walker hwalker
  rcases run_onChain settings bytes actions walker hwalker with ⟨links, hlinks⟩
  exact ⟨links, hlinks.refines⟩

/-- A copy is taken after the first value. The first cursor is asked in vain for
the second value as a narrow one, gives it as an item, and stops at the fault
behind it. The copy still stands where it was taken, and reads on from there. -/
theorem Walkers.refine_chain_copy :
    (⟨⟨6, [0x80], {}, false⟩,
        [(.read, .value 7), (.readNarrow .bits64, .value 0x100000000)]⟩ : Walker) ∈
      run {} [0x07, 0x80, 0x80, 0x80, 0x80, 0x10, 0x80]
        [.call 0 .read, .copy 0, .call 0 (.readNarrow .bits32), .call 0 .next, .call 0 .next,
          .call 1 (.readNarrow .bits64), .call 1 .read] ∧
    ∃ links, Walker.Refines {} [0x07, 0x80, 0x80, 0x80, 0x80, 0x10, 0x80] links
      ⟨⟨6, [0x80], {}, false⟩,
        [(.read, .value 7), (.readNarrow .bits64, .value 0x100000000)]⟩ := by
  have h : (⟨⟨6, [0x80], {}, false⟩,
        [(.read, .value 7), (.readNarrow .bits64, .value 0x100000000)]⟩ : Walker) ∈
      run {} [0x07, 0x80, 0x80, 0x80, 0x80, 0x10, 0x80]
        [.call 0 .read, .copy 0, .call 0 (.readNarrow .bits32), .call 0 .next, .call 0 .next,
          .call 1 (.readNarrow .bits64), .call 1 .read] := by
    decide +kernel
  exact ⟨h, refine_chain _ _ _ _ h⟩

end Base128

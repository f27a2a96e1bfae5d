import Base128.Proofs.Extension
import Base128.Proofs.Items
import Base128.Proofs.Malformed

/-! # Streams that come in chunks

A stream need not be there all at once. What has been read of its front stays
as it is when more bytes come, and reading can be taken up where the last
complete value ends.

* `completeFields`, `completeLength` — the fields of a stream, and the number of
  bytes that they take up.
* `Split` — what the items of `a` say about those of `a ++ b`: a stream that was
  **refused** stays so, and any other goes on behind its complete values.
* `items_split` — every split of every stream is one of these two.
* `receive` — a caller that keeps the bytes it could not use yet.
* `items_chunk_invariant` — so this caller sees the same items as one that has
  the whole stream, wherever it is cut.
-/

namespace Base128

/-! ## Complete values -/

/-- The fields among items, which are all of them but a fault at the end. -/
def Item.fields : List Item → List Field
  | [] => []
  | .ok field :: items => field :: fields items
  | .error _ :: items => fields items

/-- The fields that a stream gives. -/
def completeFields (settings : Settings) (bytes : Bytes) : List Field :=
  Item.fields (items settings bytes)

/-- The number of bytes that the fields of a stream take up. -/
def completeLength (settings : Settings) (bytes : Bytes) : ℕ :=
  ((completeFields settings bytes).map Field.length).sum

variable {settings : Settings} {bytes : Bytes}

theorem Item.fields_moved (base : ℕ) (items : List Item) :
    Item.fields (items.map (Item.moved base)) = (Item.fields items).map (Field.moved base) := by
  induction items with
  | nil => rfl
  | cons item items ih =>
    cases item with
    | error fault => simpa [Item.fields] using ih
    | ok field => simpa [Item.fields] using ih

theorem Item.fields_map_ok (fields : List Field) : Item.fields (fields.map .ok) = fields := by
  induction fields with
  | nil => rfl
  | cons field fields ih => rw [List.map_cons, Item.fields, ih]

@[simp] theorem completeFields_nil (settings : Settings) : completeFields settings [] = [] := by
  rw [completeFields, items_nil, Item.fields]

theorem completeFields_of_error {fault : Fault} (hne : bytes ≠ [])
    (h : decode settings bytes = .error fault) : completeFields settings bytes = [] := by
  rw [completeFields, items_of_error hne h]
  rfl

theorem completeFields_encoded {front : Bytes} {value : UInt64}
    (h : Encodes settings front value) (rest : Bytes) :
    completeFields settings (front ++ rest) =
      ⟨0, front.length, value⟩ ::
        (completeFields settings rest).map (Field.moved front.length) := by
  rw [completeFields, items_encoded h, Item.fields, Item.fields_moved, completeFields]

theorem completeLength_encoded {front : Bytes} {value : UInt64}
    (h : Encodes settings front value) (rest : Bytes) :
    completeLength settings (front ++ rest) = front.length + completeLength settings rest := by
  rw [completeLength, completeFields_encoded h, List.map_cons, List.sum_cons, List.map_map]
  rfl

/-! ## One split -/

/-- A fault that no bytes can mend: there is a number that is too large, or an
encoding that is too long. -/
def Fault.IsRefusal (fault : Fault) : Prop :=
  (∃ i, fault = .overflow i) ∨ ∃ i limit, fault = .tooLong i limit

/-- What the items of `a` say about those of `a` with `b` behind it. -/
inductive Split (settings : Settings) (a b : Bytes) : Prop where
  /-- The stream was refused, and `b` is not looked at. -/
  | refused {fault : Fault} (refusal : fault.IsRefusal)
      (items_eq : items settings a = (completeFields settings a).map .ok ++ [.error fault])
      (unchanged : items settings (a ++ b) = items settings a)
  /-- The stream was read to its end, or to a value that may go on in `b`. -/
  | goesOn
      (items_eq :
        (items settings a = (completeFields settings a).map .ok ∧
            completeLength settings a = a.length) ∨
          items settings a = (completeFields settings a).map .ok ++
            [.error (.incomplete (completeLength settings a)
              (a.length - completeLength settings a))])
      (continued : items settings (a ++ b) = (completeFields settings a).map .ok ++
        (items settings (a.drop (completeLength settings a) ++ b)).map
          (Item.moved (completeLength settings a)))

theorem Fault.IsRefusal.needsMore_eq {fault : Fault} (h : fault.IsRefusal) :
    fault.needsMore = false := by
  rcases h with ⟨i, rfl⟩ | ⟨i, limit, rfl⟩
  · rfl
  · rfl

theorem Fault.IsRefusal.rebase {fault : Fault} (h : fault.IsRefusal) (base : ℕ) :
    (fault.rebase base).IsRefusal := by
  rcases h with ⟨i, rfl⟩ | ⟨i, limit, rfl⟩
  · exact Or.inl ⟨i + base, rfl⟩
  · exact Or.inr ⟨i + base, limit, rfl⟩

/-- A value in front of a stream does not change how it splits. -/
theorem Split.encoded {front rest b : Bytes} {value : UInt64}
    (hfront : Encodes settings front value) (h : Split settings rest b) :
    Split settings (front ++ rest) b := by
  -- the items of the rest are moved by the length of the value, in every equation
  have hfields := completeFields_encoded hfront rest
  have hlength := completeLength_encoded hfront rest
  cases h with
  | @refused fault refusal items_eq unchanged =>
    refine .refused (refusal.rebase front.length) ?_ ?_
    · rw [items_encoded hfront, items_eq, hfields]
      simp [Function.comp_def]
    · rw [List.append_assoc, items_encoded hfront, items_encoded hfront, unchanged]
  | goesOn items_eq continued =>
    refine .goesOn ?_ ?_
    · rw [items_encoded hfront, hfields, hlength]
      rcases items_eq with ⟨hitems, hall⟩ | hitems
      · refine Or.inl ⟨?_, ?_⟩
        · rw [hitems]
          simp [Function.comp_def]
        · rw [hall, List.length_append]
      · refine Or.inr ?_
        have hleft : (front ++ rest).length - (front.length + completeLength settings rest) =
            rest.length - completeLength settings rest := by
          rw [List.length_append]
          omega
        rw [hitems, hleft]
        simp [Function.comp_def, Fault.rebase, Nat.add_comm]
    · have hdrop : (front ++ rest).drop (front.length + completeLength settings rest) =
          rest.drop (completeLength settings rest) := by
        rw [← List.drop_drop, List.drop_left]
      rw [List.append_assoc, items_encoded hfront, continued, hfields, hlength, hdrop]
      simp [Function.comp_def]

/-- **One split.** Wherever a stream is cut, its front part was refused or is
gone on with. -/
theorem items_split (settings : Settings) (a b : Bytes) : Split settings a b := by
  induction a using stream_induction settings with
  | finished =>
    refine .goesOn (Or.inl ?_) ?_
    · simp [completeFields, completeLength, Item.fields]
    · simp [completeFields, completeLength, Item.fields]
  | malformed a fault hne hdecode =>
    have hfields := completeFields_of_error hne hdecode
    have hlength : completeLength settings a = 0 := by
      simp [completeLength, hfields]
    have hitems := items_of_error hne hdecode
    rcases decode_error_position hdecode with hfault | hrefused
    · -- the value may go on in `b`, and nothing of it is kept
      refine .goesOn (Or.inr ?_) ?_
      · rw [hitems, hfields, hlength, hfault]
        rfl
      · simp [hfields, hlength]
    · have hrefusal : fault.IsRefusal := by
        rcases hrefused with ⟨i, hfault, -⟩ | ⟨limit, hfault, -⟩
        · exact Or.inl ⟨i, hfault⟩
        · exact Or.inr ⟨limit, limit, hfault⟩
      have hmore := decode_append_of_decided hdecode hrefusal.needsMore_eq b
      refine .refused hrefusal ?_ ?_
      · rw [hitems, hfields]
        rfl
      · rw [hitems, items_of_error (by simp [hne]) hmore]
  | value front value rest hencodes ih => exact ih.encoded hencodes

/-! ## Many chunks -/

/-- This item is a fault for which it is no use to wait for more bytes. -/
def Item.refused : Item → Bool
  | .ok _ => false
  | .error fault => !fault.needsMore

/-- What a caller sees that is handed a stream in chunks. It has used up `base`
bytes, and `kept` the ones behind them. It reads what it has when a chunk comes,
and keeps what the complete values leave over, until a fault says that waiting
is no use. When no more chunks come, what was kept is all there is. -/
def receive (settings : Settings) (base : ℕ) (kept : Bytes) : List Bytes → List Item
  | [] => (items settings kept).map (Item.moved base)
  | chunk :: chunks =>
    let seen := kept ++ chunk
    if (items settings seen).any Item.refused then (items settings seen).map (Item.moved base)
    else
      (completeFields settings seen).map (fun field => .ok (field.moved base)) ++
        receive settings (base + completeLength settings seen)
          (seen.drop (completeLength settings seen)) chunks

/-- The caller is never behind and never ahead of the stream. -/
theorem receive_eq (settings : Settings) (base : ℕ) (kept : Bytes) (chunks : List Bytes) :
    receive settings base kept chunks =
      (items settings (kept ++ chunks.flatten)).map (Item.moved base) := by
  have hnone (fields : List Field) :
      (fields.map (Except.ok : Field → Item)).any Item.refused = false := by
    simp [Item.refused, Function.comp_def]
  induction chunks generalizing base kept with
  | nil => simp [receive]
  | cons chunk chunks ih =>
    rw [List.flatten_cons, ← List.append_assoc]
    unfold receive
    cases items_split settings (kept ++ chunk) chunks.flatten with
    | refused refusal items_eq unchanged =>
      have hstop : (items settings (kept ++ chunk)).any Item.refused = true := by
        rw [items_eq, List.any_append]
        simp [Item.refused, refusal.needsMore_eq]
      rw [unchanged]
      simp only [hstop, if_true]
    | goesOn items_eq continued =>
      have hwait : (items settings (kept ++ chunk)).any Item.refused = false := by
        rcases items_eq with ⟨hitems, -⟩ | hitems
        · rw [hitems, hnone]
        · rw [hitems, List.any_append, hnone]
          rfl
      -- the next chunk finds the caller where the complete values end
      rw [continued]
      simp only [hwait, Bool.false_eq_true, if_false, ih]
      simp [Function.comp_def]

/-- **Chunk invariance.** However a stream `a ++ b` is cut in two, the items of
`a` are all that there are if they end with a refusal, and otherwise the stream
goes on behind the complete values of `a` as if it began there. So a caller that
keeps what it could not use sees the items of the whole stream, however many
chunks it comes in. -/
theorem items_chunk_invariant (settings : Settings) :
    (∀ a b : Bytes, Split settings a b) ∧
      ∀ chunks : List Bytes, receive settings 0 [] chunks = items settings chunks.flatten := by
  refine ⟨items_split settings, ?_⟩
  intro chunks
  simp [receive_eq]

end Base128

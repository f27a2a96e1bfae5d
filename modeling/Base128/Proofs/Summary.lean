import Base128.Proofs.Lossless
import Base128.Proofs.Paging

/-! # The summary of a listing

Below its rows a listing says how many bytes it covers. The number is taken from the last
field alone, so it is right only if the fields leave **no gap**: each starts where the one
before it ends, and the first where the listing does.

* `Listing.Contiguous.next`, `Listing.Contiguous.covered_eq` — where there is no gap, each
  field starts where the one before it ends, and the last one knows the sum.
* `Listing.exists_page_of_collect` — a listing is a page. If it has fewer values than
  were asked for, no bytes are left behind it.
* `Listing.Accounted`, `Listing.collect_accounted` — every byte is in a row, in front of
  the listing or behind it.
-/

namespace Base128.Listing

variable {settings : Settings} {bytes : Bytes} {skip start : ℕ} {fields : List Field}

/-! ## Fields without a gap -/

/-- What is covered reaches from the start of a page to its end. -/
theorem covered_eq_pageEnd_sub (fields : List Field) (start : ℕ) :
    covered fields start = pageEnd start fields - start := by
  unfold covered pageEnd
  cases fields.getLast? with
  | none => exact (Nat.sub_self start).symm
  | some field => rfl

namespace Contiguous

theorem head (h : Contiguous start fields) : ∀ field ∈ fields.head?, field.offset = start := by
  intro field hfield
  cases fields with
  | nil => simp at hfield
  | cons first fields =>
    obtain rfl := Option.some.inj hfield
    exact h.1

/-- Each field starts where the one before it ends. -/
theorem next (h : Contiguous start fields) (i : ℕ) (hi : i + 1 < fields.length) :
    fields[i + 1].offset = fields[i].offset + fields[i].length := by
  induction fields generalizing start i with
  | nil => simp at hi
  | cons field fields ih =>
    cases i with
    | zero =>
      cases fields with
      | nil => simp at hi
      | cons second fields => exact h.2.1
    | succ i => exact ih h.2 i (Nat.lt_of_succ_lt_succ hi)

/-- **The last field knows the sum.** -/
theorem covered_eq (h : Contiguous start fields) : covered fields start = totalLength fields := by
  rw [covered_eq_pageEnd_sub, h.pageEnd_eq, Nat.add_sub_cancel_left]

end Contiguous

/-! ## What is listed -/

/-- A listing without a count is one with a count that is too large. -/
theorem exists_collect_eq_some (settings : Settings) (hskip : skip ≤ bytes.length) :
    ∃ n, (items settings (bytes.drop skip)).length < n ∧
      collect settings bytes skip none = collect settings bytes skip (some n) := by
  refine ⟨(items settings (bytes.drop skip)).length + 1, Nat.lt_succ_self _, ?_⟩
  rw [collect_eq_gather hskip, collect_eq_gather hskip, limited, limited,
    List.take_of_length_le (Nat.le_succ _)]

/-- A page has no more values than there are items. -/
theorem Page.length_le_items {n : ℕ} {parts : List (Bytes × UInt64)} {rest : Bytes}
    (h : Page settings bytes skip n fields parts rest) :
    fields.length ≤ (items settings (bytes.drop skip)).length := by
  rw [h.items_eq, h.fields_eq, List.length_append, List.length_map, List.length_map]
  exact Nat.le_add_right _ _

/-- **A listing is a page**, of `count` values or of all. If it has fewer than were asked
for, nothing is left behind it. -/
theorem exists_page_of_collect {count : Option ℕ} (hskip : skip ≤ bytes.length)
    (h : collect settings bytes skip count = .ok fields) :
    ∃ n parts rest, Page settings bytes skip n fields parts rest ∧
      (∀ asked, count = some asked → asked = n) ∧ (count = none → fields.length < n) := by
  cases count with
  | none =>
    obtain ⟨n, hn, hcollect⟩ := exists_collect_eq_some settings hskip
    rw [hcollect] at h
    obtain ⟨parts, rest, hpage⟩ := exists_page hskip h
    have hless : fields.length < n := hpage.length_le_items.trans_lt hn
    exact ⟨n, parts, rest, hpage, by simp, fun _ => hless⟩
  | some n =>
    obtain ⟨parts, rest, hpage⟩ := exists_page hskip h
    exact ⟨n, parts, rest, hpage, by simp, by simp⟩

namespace Page

variable {n : ℕ} {parts : List (Bytes × UInt64)} {rest : Bytes}

theorem length_fields (h : Page settings bytes skip n fields parts rest) :
    fields.length = parts.length := by
  rw [h.fields_eq, List.length_map, length_laidOut]

theorem contiguous (h : Page settings bytes skip n fields parts rest) :
    Contiguous skip fields := by
  rw [h.fields_eq]
  exact contiguous_laidOut skip parts

/-- The bytes from `skip` on are those in the rows and those behind them. -/
theorem totalLength_add (h : Page settings bytes skip n fields parts rest) :
    totalLength fields + rest.length = bytes.length - skip := by
  have hlength := congrArg List.length h.bytes_eq
  rw [List.length_drop, List.length_append] at hlength
  rw [h.fields_eq, totalLength_laidOut, hlength]

theorem length_le (h : Page settings bytes skip n fields parts rest) : fields.length ≤ n := by
  rw [h.length_fields]
  rcases h.full with hfull | ⟨hless, -⟩
  · exact hfull.le
  · exact hless

/-- A page that is not full ends with the bytes. -/
theorem rest_eq_nil (h : Page settings bytes skip n fields parts rest)
    (hless : fields.length < n) : rest = [] := by
  rcases h.full with hfull | ⟨-, hrest⟩
  · rw [h.length_fields] at hless
    omega
  · exact hrest

end Page

/-! ## Every byte is accounted for -/

/-- What the listing of `fields` says about bytes, of which `skip` had been left out. -/
structure Accounted (bytes : Bytes) (skip : ℕ) (count : Option ℕ) (fields : List Field) :
    Prop where
  skip_le : skip ≤ bytes.length
  first : ∀ field ∈ fields.head?, field.offset = skip
  next : ∀ i (hi : i + 1 < fields.length),
    fields[i + 1].offset = fields[i].offset + fields[i].length
  /-- One row for each field in order, and below them three numbers: how many fields, how
  many bytes of them, and how many bytes there were. -/
  text_eq : text fields skip bytes.length =
    String.join ((fields.map Field.row ++ ["---",
      fields.length.repr ++ " value" ++ (if fields.length = 1 then "" else "s") ++ ", " ++
        (fields.map Field.length).sum.repr ++ " of " ++ (bytes.length - skip).repr ++
        " bytes decoded"]).map (· ++ "\n"))
  /-- The rows of the text, read number by number, tell the fields. -/
  rows_eq : rows? (text fields skip bytes.length) = some (fields.map fun field =>
    ⟨field.offset, field.length, field.value.toNat, field.value.toNat⟩)
  sum_le : (fields.map Field.length).sum ≤ bytes.length - skip
  /-- All bytes are covered, unless the listing has all the values it was asked for. -/
  sum_eq : (count = none ∨ ∃ asked, count = some asked ∧ fields.length < asked) →
    (fields.map Field.length).sum = bytes.length - skip
  length_le : ∀ asked, count = some asked → fields.length ≤ asked

/-- **The summary accounts for every byte.** Whatever is listed, its rows follow one
another from the first byte on, the summary gives their total length, and what is missing
to all bytes is left for a reason: so many values were asked for, and so many there are. -/
theorem collect_accounted (settings : Settings) (bytes : Bytes) (skip : ℕ) (count : Option ℕ)
    (fields : List Field) (h : collect settings bytes skip count = .ok fields) :
    Accounted bytes skip count fields := by
  have hskip : skip ≤ bytes.length := by
    by_contra hpast
    rw [collect, if_pos (Nat.lt_of_not_le hpast)] at h
    simp at h
  obtain ⟨n, parts, rest, hpage, hsome, hnone⟩ := exists_page_of_collect hskip h
  have htotal : (fields.map Field.length).sum + rest.length = bytes.length - skip :=
    hpage.totalLength_add
  constructor
  case skip_le => exact hskip
  case first => exact hpage.contiguous.head
  case next => exact hpage.contiguous.next
  case text_eq =>
    have hcounted : Text.counted fields.length "value" =
        fields.length.repr ++ " value" ++ (if fields.length = 1 then "" else "s") :=
      Text.counted_eq fields.length "value"
    rw [text, summary, hpage.contiguous.covered_eq, totalLength, hcounted]
    rfl
  case rows_eq => exact rows?_text fields skip bytes.length
  case sum_le => omega
  case sum_eq =>
    intro hfewer
    have hless : fields.length < n := by
      rcases hfewer with hall | ⟨asked, hasked, hfew⟩
      · exact hnone hall
      · rwa [← hsome asked hasked]
    have hrest : rest.length = 0 := by rw [hpage.rest_eq_nil hless, List.length_nil]
    omega
  case length_le =>
    intro asked hasked
    rw [hsome asked hasked]
    exact hpage.length_le

/-- Two values of four bytes, behind a byte that is skipped. The byte behind them is not
asked for, and not covered. -/
theorem collect_accounted_two :
    collect {} [0x07, 0x01, 0xE5, 0x8E, 0x26, 0x80] 1 (some 2) =
        .ok [⟨1, 1, 1⟩, ⟨2, 3, 624485⟩] ∧
      Accounted [0x07, 0x01, 0xE5, 0x8E, 0x26, 0x80] 1 (some 2) [⟨1, 1, 1⟩, ⟨2, 3, 624485⟩] := by
  have hpage : collect {} [0x07, 0x01, 0xE5, 0x8E, 0x26, 0x80] 1 (some 2) =
      .ok [⟨1, 1, 1⟩, ⟨2, 3, 624485⟩] := by
    decide +kernel
  exact ⟨hpage, collect_accounted {} _ 1 (some 2) _ hpage⟩

end Base128.Listing

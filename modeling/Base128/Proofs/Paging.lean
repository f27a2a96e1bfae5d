import Base128.Listing
import Base128.Proofs.Concatenation

/-! # Listing in pages

A listing can be made in pages: so many values, and then again from where the
last of them ends. Nothing is lost or listed twice, and a page does not depend on
what stands behind it.

* `Listing.pageEnd` — where the next page starts.
* `Listing.gather_append`, `Listing.gather_moved` — placing items does so one
  by one, and places of moved items are moved places.
* `Listing.Contiguous` — fields without a gap. The fields of encodings that follow one
  another are such, and end where their lengths add up to.
* `Listing.exists_page` — a page **is** a number of encodings in the file.
* `Listing.collect_paged` — so the listing of a page and of what is behind it
  is the listing of both.
-/

namespace Base128

/-- The same failure, with the position of its fault counted from an earlier
start. What is said of the file stays. -/
def Failure.rebased (base : ℕ) : Failure → Failure
  | .malformed offset fault => .malformed offset (fault.rebase base)
  | failure => failure

namespace Listing

variable {settings : Settings} {bytes : Bytes}

/-! ## Selections -/

/-- So many items, or all of them. -/
def limited (count : Option ℕ) (items : List Item) : List Item :=
  match count with
  | none => items
  | some count => items.take count

theorem selected_eq_limited (settings : Settings) (bytes : Bytes) (count : Option ℕ) :
    selected settings bytes count = limited count (items settings bytes) := by
  cases count with
  | none => rfl
  | some count => exact Cursor.take_fst_eq count

theorem limited_map (count : Option ℕ) (f : Item → Item) (items : List Item) :
    limited count (items.map f) = (limited count items).map f := by
  cases count with
  | none => rfl
  | some count => exact List.map_take.symm

/-- A larger selection is a smaller one, and a selection of the others. -/
theorem limited_add (n : ℕ) (more : Option ℕ) (items : List Item) :
    limited (more.map (n + ·)) items = items.take n ++ limited more (items.drop n) := by
  cases more with
  | none => exact (List.take_append_drop n items).symm
  | some r => exact List.take_add

/-! ## Placing items -/

/-- The place behind the fields of a page that starts at `start`. -/
def pageEnd (start : ℕ) (page : List Field) : ℕ :=
  match page.getLast? with
  | none => start
  | some field => field.stop

theorem pageEnd_cons (start : ℕ) (field : Field) (page : List Field) :
    pageEnd start (field :: page) = pageEnd field.stop page := by
  unfold pageEnd
  rw [List.getLast?_cons]
  cases page.getLast? with
  | none => rfl
  | some last => rfl

/-- Fields are placed first, and then what stands behind them. -/
theorem gather_append (base stop : ℕ) (fields : List Field) (back : List Item) :
    gather base stop (fields.map .ok ++ back) =
      (gather base (pageEnd stop (fields.map (Field.moved base))) back).map
        (fields.map (Field.moved base) ++ ·) := by
  induction fields generalizing stop with
  | nil =>
    simp only [List.map_nil, List.nil_append, pageEnd, List.getLast?_nil]
    cases gather base stop back <;> rfl
  | cons field fields ih =>
    rw [List.map_cons, List.cons_append, gather, ih, List.map_cons, pageEnd_cons]
    cases gather base (pageEnd (field.moved base).stop (fields.map (Field.moved base))) back <;> rfl

/-- A value does not fail, so a failure is that of the items behind it. -/
theorem gather_cons_eq_error_iff {base stop : ℕ} {field : Field} {items : List Item}
    {failure : Failure} :
    gather base stop (.ok field :: items) = .error failure ↔
      gather base (field.moved base).stop items = .error failure := by
  rw [gather]
  cases gather base (field.moved base).stop items with
  | error other => simp [Except.map]
  | ok fields => simp [Except.map]

/-- A fault among items is met, whatever comes later. -/
theorem gather_append_of_error {base stop : ℕ} {front : List Item} {failure : Failure}
    (h : gather base stop front = .error failure) (back : List Item) :
    gather base stop (front ++ back) = .error failure := by
  induction front generalizing stop with
  | nil => simp [gather] at h
  | cons item front ih =>
    cases item with
    | error fault => exact h
    | ok field =>
      rw [List.cons_append, gather_cons_eq_error_iff]
      exact ih (gather_cons_eq_error_iff.mp h)

/-- Items that were moved come to the places where they would be from a later
start, and their faults are counted from the earlier one. -/
theorem gather_moved (base stop shift : ℕ) (items : List Item) :
    gather base stop (items.map (Item.moved shift)) =
      (gather (base + shift) stop items).mapError (Failure.rebased shift) := by
  induction items generalizing stop with
  | nil => rfl
  | cons item items ih =>
    cases item with
    | error fault => rfl
    | ok field =>
      rw [List.map_cons, Item.moved_ok, gather, gather, Field.moved_moved, ih]
      cases gather (base + shift) (field.moved (base + shift)).stop items <;> rfl

theorem gather_map_ok (base stop : ℕ) (fields : List Field) :
    gather base stop (fields.map .ok) = .ok (fields.map (Field.moved base)) := by
  have h := gather_append base stop fields []
  rw [List.append_nil] at h
  rw [h, gather, Except.map, List.append_nil]

/-- Placing items fails for no other reason than a malformed value. -/
theorem exists_malformed_of_gather {base stop : ℕ} {items : List Item} {failure : Failure}
    (h : gather base stop items = .error failure) :
    ∃ start fault, failure = .malformed start fault := by
  induction items generalizing stop with
  | nil => simp [gather] at h
  | cons item items ih =>
    cases item with
    | error fault => exact ⟨stop, fault, (Except.error.inj h).symm⟩
    | ok field => exact ih (gather_cons_eq_error_iff.mp h)

/-! ## Fields without a gap -/

/-- The first field starts at `start`, and every other one where the one before it ends. -/
def Contiguous (start : ℕ) : List Field → Prop
  | [] => True
  | field :: fields => field.offset = start ∧ Contiguous field.stop fields

/-- The number of bytes of all fields together. -/
def totalLength (fields : List Field) : ℕ := (fields.map Field.length).sum

theorem totalLength_cons (field : Field) (fields : List Field) :
    totalLength (field :: fields) = field.length + totalLength fields := by
  rw [totalLength, List.map_cons, List.sum_cons, totalLength]

/-- The fields of encodings leave no gap, wherever the encodings stand. -/
theorem contiguous_laidOut (start : ℕ) (parts : List (Bytes × UInt64)) :
    Contiguous start ((laidOut parts).map (Field.moved start)) := by
  induction parts generalizing start with
  | nil => exact trivial
  | cons part parts ih =>
    have hmoved : ((laidOut parts).map (Field.moved part.1.length)).map (Field.moved start) =
        (laidOut parts).map (Field.moved (start + part.1.length)) := by
      simp [Function.comp_def, Field.moved_moved]
    rw [laidOut_cons, List.map_cons, hmoved]
    refine ⟨Nat.zero_add start, ?_⟩
    have hstop : (Field.moved start ⟨0, part.1.length, part.2⟩).stop = start + part.1.length := by
      simp [Field.stop, Field.moved]
    rw [hstop]
    exact ih (start + part.1.length)

theorem totalLength_laidOut (start : ℕ) (parts : List (Bytes × UInt64)) :
    totalLength ((laidOut parts).map (Field.moved start)) = (joined parts).length := by
  have hlength : (Field.length ∘ Field.moved start) = Field.length := rfl
  rw [totalLength, List.map_map, hlength, map_length_laidOut, joined, List.length_flatten,
    List.map_map]
  rfl

/-- Where the last field ends, all of them have been counted. -/
theorem Contiguous.pageEnd_eq {start : ℕ} {fields : List Field} (h : Contiguous start fields) :
    pageEnd start fields = start + totalLength fields := by
  induction fields generalizing start with
  | nil => rfl
  | cons field fields ih =>
    have hstop : field.stop = start + field.length := by rw [Field.stop, h.1]
    rw [pageEnd_cons, ih h.2, hstop, totalLength_cons, Nat.add_assoc]

/-- The fields of a concatenation end where it ends. -/
theorem pageEnd_laidOut (start : ℕ) (parts : List (Bytes × UInt64)) :
    pageEnd start ((laidOut parts).map (Field.moved start)) = start + (joined parts).length := by
  rw [(contiguous_laidOut start parts).pageEnd_eq, totalLength_laidOut]

/-! ## Pages -/

theorem collect_eq_gather {skip : ℕ} (hskip : skip ≤ bytes.length) (count : Option ℕ) :
    collect settings bytes skip count =
      gather skip skip (limited count (items settings (bytes.drop skip))) := by
  rw [collect, if_neg (Nat.not_lt.mpr hskip), selected_eq_limited]

/-- What a page of `n` values from byte `skip` on is made of: encodings that stand
there in the file, `n` of them or all that there are. -/
structure Page (settings : Settings) (bytes : Bytes) (skip n : ℕ) (page : List Field)
    (parts : List (Bytes × UInt64)) (rest : Bytes) : Prop where
  decodes : EachDecodes settings parts
  bytes_eq : bytes.drop skip = joined parts ++ rest
  fields_eq : page = (laidOut parts).map (Field.moved skip)
  full : parts.length = n ∨ parts.length ≤ n ∧ rest = []

/-- What can be listed is a page. -/
theorem exists_page {skip n : ℕ} {page : List Field} (hskip : skip ≤ bytes.length)
    (h : collect settings bytes skip (some n) = .ok page) :
    ∃ parts rest, Page settings bytes skip n page parts rest := by
  rw [collect_eq_gather hskip] at h
  rcases exists_joined_append settings (bytes.drop skip) with ⟨parts, rest, hparts, hbytes, hrest⟩
  by_cases hn : n ≤ parts.length
  · -- the page is full, and ends among the encodings
    have hfirst : EachDecodes settings (parts.take n) := by
      intro part hpart
      exact hparts part (List.mem_of_mem_take hpart)
    have hlength : (parts.take n).length = n := by
      rw [List.length_take, Nat.min_eq_left hn]
    have hsplit : bytes.drop skip = joined (parts.take n) ++ (joined (parts.drop n) ++ rest) := by
      rw [hbytes, ← List.append_assoc, ← joined_append, List.take_append_drop]
    have htake : (items settings (bytes.drop skip)).take n = (laidOut (parts.take n)).map .ok := by
      rw [hsplit, items_joined_append hfirst]
      apply List.take_left'
      rw [List.length_map, length_laidOut, hlength]
    rw [limited, htake, gather_map_ok] at h
    exact ⟨parts.take n, _, hfirst, hsplit, (Except.ok.inj h).symm, Or.inl hlength⟩
  · rw [hbytes, items_joined_append hparts, limited] at h
    rcases hrest with rfl | ⟨fault, hfault⟩
    · -- there are fewer encodings, and nothing behind them
      rw [items_nil, List.map_nil, List.append_nil, List.take_of_length_le (by simp; omega),
        gather_map_ok] at h
      exact ⟨parts, [], hparts, hbytes, (Except.ok.inj h).symm, Or.inr ⟨by omega, rfl⟩⟩
    · -- the fault behind them would have been met
      rw [hfault, List.take_of_length_le (by simp; omega), gather_append] at h
      simp [gather, Except.map] at h

namespace Page

variable {skip n : ℕ} {page : List Field} {parts : List (Bytes × UInt64)} {rest : Bytes}

theorem items_eq (h : Page settings bytes skip n page parts rest) :
    items settings (bytes.drop skip) = (laidOut parts).map .ok ++
      (items settings rest).map (Item.moved (joined parts).length) := by
  rw [h.bytes_eq, items_joined_append h.decodes]

/-- The items of a page, and those behind it. -/
theorem take_items (h : Page settings bytes skip n page parts rest) :
    (items settings (bytes.drop skip)).take n = (laidOut parts).map .ok ∧
      (items settings (bytes.drop skip)).drop n =
        (items settings rest).map (Item.moved (joined parts).length) := by
  rw [h.items_eq]
  rcases h.full with hfull | ⟨hless, rfl⟩
  · have hlength : ((laidOut parts).map (Except.ok : Field → Item)).length = n := by
      rw [List.length_map, length_laidOut, hfull]
    exact ⟨List.take_left' hlength, List.drop_left' hlength⟩
  · rw [items_nil, List.map_nil, List.append_nil, List.drop_of_length_le (by simpa using hless),
      List.take_of_length_le (by simpa using hless)]
    exact ⟨rfl, rfl⟩

/-- A page ends where its encodings do. -/
theorem pageEnd_eq (h : Page settings bytes skip n page parts rest) :
    pageEnd skip page = skip + (joined parts).length := by
  rw [h.fields_eq, pageEnd_laidOut]

theorem drop_pageEnd (h : Page settings bytes skip n page parts rest) :
    bytes.drop (pageEnd skip page) = rest := by
  rw [h.pageEnd_eq, ← List.drop_drop, h.bytes_eq, List.drop_left]

theorem pageEnd_le (h : Page settings bytes skip n page parts rest) (hskip : skip ≤ bytes.length) :
    pageEnd skip page ≤ bytes.length := by
  have hlength := congrArg List.length h.bytes_eq
  rw [List.length_drop, List.length_append] at hlength
  rw [h.pageEnd_eq]
  omega

/-- **The law of pages.** More values than a page has are the page, and what is
listed from its end on. -/
theorem collect_more (h : Page settings bytes skip n page parts rest)
    (hskip : skip ≤ bytes.length) (more : Option ℕ) :
    collect settings bytes skip (more.map (n + ·)) =
      ((collect settings bytes (pageEnd skip page) more).mapError
        (Failure.rebased (pageEnd skip page - skip))).map (page ++ ·) := by
  have hshift : pageEnd skip page - skip = (joined parts).length := by
    rw [h.pageEnd_eq]
    omega
  rw [collect_eq_gather hskip, collect_eq_gather (h.pageEnd_le hskip), limited_add,
    h.take_items.1, h.take_items.2, limited_map, gather_append, gather_moved, ← h.fields_eq,
    h.drop_pageEnd, hshift, ← h.pageEnd_eq]

/-- The values of a full page are listed whatever stands behind them. -/
theorem collect_take_append (h : Page settings bytes skip n page parts rest)
    (hskip : skip ≤ bytes.length) (hfull : page.length = n) (tail : Bytes) :
    collect settings (bytes.take (pageEnd skip page) ++ tail) skip (some n) = .ok page := by
  have hlength : ((laidOut parts).map (Except.ok : Field → Item)).length = n := by
    rw [List.length_map, ← hfull, h.fields_eq, List.length_map]
  have hfront : skip ≤ (bytes.take (pageEnd skip page)).length := by
    rw [List.length_take, Nat.min_eq_left (h.pageEnd_le hskip), h.pageEnd_eq]
    omega
  have hle : skip ≤ (bytes.take (pageEnd skip page) ++ tail).length := by
    rw [List.length_append]
    omega
  have hbytes : (bytes.take (pageEnd skip page) ++ tail).drop skip = joined parts ++ tail := by
    have hpart : (bytes.take (pageEnd skip page)).drop skip = joined parts := by
      rw [List.drop_take, h.bytes_eq, h.pageEnd_eq, Nat.add_sub_cancel_left, List.take_left]
    rw [List.drop_append_of_le_length hfront, hpart]
  rw [collect_eq_gather hle, hbytes, items_joined_append h.decodes, limited,
    List.take_left' hlength, gather_map_ok, h.fields_eq]

end Page

/-- **Paging.** If a page of `n` values can be listed, then a listing of more is
the page and the listing from its end on, and fails where that fails: on the
same malformed value, named by the same place. A full page stays the same whatever
stands behind it. And if the page cannot be listed, neither can more, for the very
same reason. -/
theorem collect_paged (settings : Settings) {bytes : Bytes} {skip : ℕ}
    (hskip : skip ≤ bytes.length) (n : ℕ) (more : Option ℕ) :
    (∀ page, collect settings bytes skip (some n) = .ok page →
      (∀ all, collect settings bytes skip (more.map (n + ·)) = .ok all ↔
        ∃ others, collect settings bytes (pageEnd skip page) more = .ok others ∧
          all = page ++ others) ∧
      (∀ failure, collect settings bytes skip (more.map (n + ·)) = .error failure ↔
        ∃ start fault,
          collect settings bytes (pageEnd skip page) more = .error (.malformed start fault) ∧
          failure = .malformed start (fault.rebase (pageEnd skip page - skip)) ∧
          failure.chain.head? = (Failure.malformed start fault).chain.head?) ∧
      (page.length = n → ∀ tail,
        collect settings (bytes.take (pageEnd skip page) ++ tail) skip (some n) = .ok page)) ∧
    (∀ failure, collect settings bytes skip (some n) = .error failure →
      collect settings bytes skip (more.map (n + ·)) = .error failure) := by
  constructor
  · intro page hpage
    rcases exists_page hskip hpage with ⟨parts, rest, h⟩
    rw [h.collect_more hskip]
    refine ⟨?_, ?_, h.collect_take_append hskip⟩
    · intro all
      cases collect settings bytes (pageEnd skip page) more with
      | error failure => simp [Except.mapError, Except.map]
      | ok others => simp [Except.mapError, Except.map, eq_comm]
    · intro failure
      cases hmore : collect settings bytes (pageEnd skip page) more with
      | ok others => simp [Except.mapError, Except.map]
      | error other =>
        -- a listing that starts within the file fails on a malformed value
        rw [collect_eq_gather (h.pageEnd_le hskip)] at hmore
        rcases exists_malformed_of_gather hmore with ⟨start, fault, rfl⟩
        constructor
        · intro hfailure
          obtain rfl := Except.error.inj hfailure
          exact ⟨start, fault, rfl, rfl, rfl⟩
        · rintro ⟨start', fault', hsame, rfl, -⟩
          obtain ⟨rfl, rfl⟩ := Failure.malformed.inj (Except.error.inj hsame)
          rfl
  · intro failure hfailure
    rw [collect_eq_gather hskip] at hfailure ⊢
    rw [limited_add]
    exact gather_append_of_error hfailure _

/-- Two values behind a byte that is skipped, and half a value behind them. The
page of two is listed, whatever follows. What is behind it fails at byte 5 of the
file, in a page of its own as in a listing of all. -/
theorem collect_paged_two :
    collect {} [0x07, 0x01, 0xE5, 0x8E, 0x26, 0x80] 1 (some 2) =
        .ok [⟨1, 1, 1⟩, ⟨2, 3, 624485⟩] ∧
      collect {} [0x07, 0x01, 0xE5, 0x8E, 0x26, 0x80] 5 none =
        .error (.malformed 5 (.incomplete 0 1)) ∧
      collect {} [0x07, 0x01, 0xE5, 0x8E, 0x26, 0x80] 1 none =
        .error (.malformed 5 (.incomplete 4 1)) ∧
      collect {} [0x07, 0x01, 0xE5, 0x8E, 0x26, 0xFF, 0xFF] 1 (some 2) =
        .ok [⟨1, 1, 1⟩, ⟨2, 3, 624485⟩] ∧
      collect {} [0x07, 0x01, 0xE5, 0x8E, 0x26, 0x80] 1 (some 7) =
        .error (.malformed 5 (.incomplete 4 1)) := by
  have hpage : collect {} [0x07, 0x01, 0xE5, 0x8E, 0x26, 0x80] 1 (some 2) =
      .ok [⟨1, 1, 1⟩, ⟨2, 3, 624485⟩] := by
    decide +kernel
  have hbehind : collect {} [0x07, 0x01, 0xE5, 0x8E, 0x26, 0x80] 5 none =
      .error (.malformed 5 (.incomplete 0 1)) := by
    decide +kernel
  have hthree : collect {} [0x07, 0x01, 0xE5, 0x8E, 0x26, 0x80] 1 (some 3) =
      .error (.malformed 5 (.incomplete 4 1)) := by
    decide +kernel
  rcases (collect_paged {} (by decide) 2 none).1 _ hpage with ⟨-, hfails, hkept⟩
  refine ⟨hpage, hbehind, (hfails _).mpr ⟨5, _, hbehind, rfl, rfl⟩, hkept rfl [0xFF, 0xFF], ?_⟩
  exact (collect_paged {} (by decide) 3 (some 4)).2 _ hthree

end Listing

end Base128

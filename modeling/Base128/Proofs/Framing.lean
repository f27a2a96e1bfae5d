import Base128.Proofs.Relaxation

/-! # What frames a stream

The top bit of a byte says whether the value goes on. Where the values of a stream start
and end, and where it is malformed, depends on these bits and on the limit: the other seven
make up the numbers, and a number has no say in it **unless** it is refused for its size.

* `SameTops` — two streams of the same length that agree in every top bit.
* `Item.frame` — an item without its number.
* `Encodes.of_sameTops`, `decode_error_of_sameTops` — one value, or one fault, where no
  number is refused.
* `frames_eq_of_sameTops` — so the top bits frame a stream where numbers are wrapped.
* `framing_by_tops` — and elsewhere as far as no number is refused.
-/

namespace Base128

/-! ## Top bits -/

theorem isLast_eq_of_top {x y : UInt8} (h : x &&& 0x80 = y &&& 0x80) : isLast x = isLast y := by
  rw [Bool.eq_iff_iff, isLast_iff, isLast_iff, h]

/-- The streams are equally long, and their bytes agree in the top bit, one by one. -/
def SameTops (a b : Bytes) : Prop := List.Forall₂ (fun x y => x &&& 0x80 = y &&& 0x80) a b

namespace SameTops

variable {a b front rest : Bytes}

theorem length_eq (h : SameTops a b) : a.length = b.length := List.Forall₂.length_eq h

/-- They end values at the same bytes. -/
theorem map_isLast (h : SameTops a b) : a.map isLast = b.map isLast := by
  induction h with
  | nil => rfl
  | cons hbyte _ ih => rw [List.map_cons, List.map_cons, isLast_eq_of_top hbyte, ih]

/-- Where one of them is cut in two, the other one can be. -/
theorem of_append (h : SameTops (front ++ rest) b) :
    ∃ front' rest', b = front' ++ rest' ∧ SameTops front front' ∧ SameTops rest rest' := by
  refine ⟨b.take front.length, b.drop front.length, (List.take_append_drop _ _).symm, ?_, ?_⟩
  · have htake := List.forall₂_take front.length h
    rwa [List.take_left] at htake
  · have hdrop := List.forall₂_drop front.length h
    rwa [List.drop_left] at hdrop

/-- The same for a cut at some byte. -/
theorem of_append_cons {byte : UInt8} (h : SameTops (front ++ byte :: rest) b) :
    ∃ front' byte' rest', b = front' ++ byte' :: rest' ∧ SameTops front front' ∧
      isLast byte = isLast byte' := by
  obtain ⟨front', back, rfl, hfront, hback⟩ := h.of_append
  obtain ⟨byte', rest', hbyte, -, rfl⟩ := List.forall₂_cons_left_iff.mp hback
  exact ⟨front', byte', rest', rfl, hfront, isLast_eq_of_top hbyte⟩

/-- They continue alike. -/
theorem forall_continues (h : SameTops a b) (hcontinues : ∀ byte ∈ a, isLast byte = false) :
    ∀ byte ∈ b, isLast byte = false := by
  have ha : ∀ last ∈ a.map isLast, last = false := by
    simpa only [List.forall_mem_map] using hcontinues
  rw [h.map_isLast] at ha
  simpa only [List.forall_mem_map] using ha

end SameTops

/-! ## Values and faults -/

variable {settings : Settings} {a b : Bytes}

theorem Unfinished.of_sameTops (hwrap : settings.overflow = .wrap)
    (h : Unfinished settings a) (htops : SameTops a b) : Unfinished settings b where
  continues := htops.forall_continues h.continues
  allowed := htops.length_eq ▸ h.allowed
  fits := Settings.fits_of_wrap hwrap _

/-- With the top bits of an encoding there is one, of whatever value. -/
theorem Encodes.of_sameTops (hwrap : settings.overflow = .wrap) {value : UInt64}
    (h : Encodes settings a value) (htops : SameTops a b) :
    ∃ other, Encodes settings b other := by
  obtain ⟨⟨front, last, rfl, hfront, hlast⟩, hallows, -, -⟩ := h
  have hlength := htops.length_eq
  obtain ⟨front', last', rest', rfl, htops', hsame⟩ := htops.of_append_cons
  -- both streams are as long as the value, so nothing is left over
  have hrest : rest' = [] := by
    have hfronts := htops'.length_eq
    simp only [List.length_append, List.length_cons, List.length_nil] at hlength
    exact List.eq_nil_of_length_eq_zero (by omega)
  subst hrest
  refine ⟨_, ⟨front', last', rfl, htops'.forall_continues hfront, hsame ▸ hlast⟩,
    hlength ▸ hallows, Settings.fits_of_wrap hwrap _, rfl⟩

/-- With the top bits of what is malformed at the front, a stream is malformed there in the
same way. -/
theorem decode_error_of_sameTops (hwrap : settings.overflow = .wrap) {fault : Fault}
    (h : decode settings a = .error fault) (htops : SameTops a b) :
    decode settings b = .error fault := by
  have hending := readFront_eq_iff.mp (decode_eq_error_iff.mp h)
  apply decode_eq_error_iff.mpr
  apply readFront_of_ending
  cases hending with
  | incomplete passed =>
    rw [htops.length_eq]
    exact .incomplete (passed.of_sameTops hwrap htops)
  | tooLong passed limit =>
    obtain ⟨front', byte', rest', rfl, hfront, -⟩ := htops.of_append_cons
    rw [hfront.length_eq] at limit ⊢
    exact .tooLong (passed.of_sameTops hwrap hfront) limit
  | overflow passed allowed refused => exact absurd (Settings.fits_of_wrap hwrap _) refused

/-! ## Streams -/

/-- What is left of an item without its number: place and length, or the fault. -/
def Item.frame : Item → Except Fault (ℕ × ℕ)
  | .ok field => .ok (field.offset, field.length)
  | .error fault => .error fault

/-- Framed alike, and further on in a stream, they are framed alike there. -/
theorem Item.map_frame_moved {items others : List Item}
    (h : items.map Item.frame = others.map Item.frame) (base : ℕ) :
    (items.map (Item.moved base)).map Item.frame =
      (others.map (Item.moved base)).map Item.frame := by
  have hmove (items : List Item) : (items.map (Item.moved base)).map Item.frame =
      (items.map Item.frame).map fun frame => match frame with
        | .ok (offset, length) => .ok (offset + base, length)
        | .error fault => .error (fault.rebase base) := by
    rw [List.map_map, List.map_map]
    apply List.map_congr_left
    intro item _
    cases item <;> rfl
  rw [hmove, hmove, h]

/-- Where no number is refused, the top bits frame the whole stream. -/
theorem frames_eq_of_sameTops (hwrap : settings.overflow = .wrap) (htops : SameTops a b) :
    (items settings a).map Item.frame = (items settings b).map Item.frame := by
  induction a using stream_induction settings generalizing b with
  | finished =>
    obtain rfl := List.forall₂_nil_left_iff.mp htops
    rfl
  | malformed a fault hne hdecode =>
    have hne' : b ≠ [] := by
      intro hnil
      apply hne
      rw [← List.length_eq_zero_iff, htops.length_eq, hnil, List.length_nil]
    rw [items_of_error hne hdecode,
      items_of_error hne' (decode_error_of_sameTops hwrap hdecode htops)]
  | value front value rest hencodes ih =>
    obtain ⟨front', rest', rfl, hfront, hrest⟩ := htops.of_append
    obtain ⟨other, hother⟩ := hencodes.of_sameTops hwrap hfront
    rw [items_encoded hencodes, items_encoded hother, List.map_cons, List.map_cons,
      ← hfront.length_eq, Item.map_frame_moved (ih hrest)]
    rfl

/-- Wrapping leaves the items alone as far as none is about a number that is too large. -/
theorem take_items_wrap (limit : Option ℕ) (bytes : Bytes) (n : ℕ)
    (hnone : ∀ i, .error (.overflow i) ∉ (items ⟨.reject, limit⟩ bytes).take n) :
    (items ⟨.wrap, limit⟩ bytes).take n = (items ⟨.reject, limit⟩ bytes).take n := by
  apply take_items_relaxed (Settings.relaxes_wrap limit)
  intro fault hmem hlifted
  obtain ⟨i, rfl⟩ := Fault.lifted_wrap_iff.mp hlifted
  exact hnone i hmem

/-- **The top bits frame a stream.** Two streams that agree in them have the same number of
items where numbers are wrapped, with the same place and length for every value and the same
fault at their end, whatever the other bits are. Where large numbers are refused, the same
goes for all items before the first one, in either stream, that is about such a number. -/
theorem framing_by_tops (limit : Option ℕ) {a b : Bytes} (htops : SameTops a b) :
    (items ⟨.wrap, limit⟩ a).map Item.frame = (items ⟨.wrap, limit⟩ b).map Item.frame ∧
    ∀ n, (∀ i, .error (.overflow i) ∉ (items ⟨.reject, limit⟩ a).take n) →
      (∀ i, .error (.overflow i) ∉ (items ⟨.reject, limit⟩ b).take n) →
      ((items ⟨.reject, limit⟩ a).take n).map Item.frame =
        ((items ⟨.reject, limit⟩ b).take n).map Item.frame := by
  have hframes : (items ⟨.wrap, limit⟩ a).map Item.frame =
      (items ⟨.wrap, limit⟩ b).map Item.frame := frames_eq_of_sameTops rfl htops
  refine ⟨hframes, ?_⟩
  intro n ha hb
  rw [← take_items_wrap limit a n ha, ← take_items_wrap limit b n hb, List.map_take,
    List.map_take, hframes]

/-- The second value of both streams has ten bytes, and in the first stream its number is too
large. -/
theorem framing_by_tops_large :
    (items ⟨.wrap, some 10⟩ (0x05 :: List.replicate 9 0x80 ++ [0x02, 0x80])).map Item.frame =
      (items ⟨.wrap, some 10⟩ (0x7f :: List.replicate 9 0xff ++ [0x01, 0xff])).map Item.frame ∧
    ((items ⟨.reject, some 10⟩ (0x05 :: List.replicate 9 0x80 ++ [0x02, 0x80])).take 1).map
        Item.frame =
      ((items ⟨.reject, some 10⟩ (0x7f :: List.replicate 9 0xff ++ [0x01, 0xff])).take 1).map
        Item.frame ∧
    (items ⟨.reject, some 10⟩ (0x05 :: List.replicate 9 0x80 ++ [0x02, 0x80])).map Item.frame =
      [.ok (0, 1), .error (.overflow 10)] ∧
    (items ⟨.reject, some 10⟩ (0x7f :: List.replicate 9 0xff ++ [0x01, 0xff])).map Item.frame =
      [.ok (0, 1), .ok (1, 10), .error (.incomplete 11 1)] := by
  have htops : SameTops (0x05 :: List.replicate 9 0x80 ++ [0x02, 0x80])
      (0x7f :: List.replicate 9 0xff ++ [0x01, 0xff]) := by
    simp only [SameTops]
    decide
  have hlarge : items ⟨.reject, some 10⟩ (0x05 :: List.replicate 9 0x80 ++ [0x02, 0x80]) =
      [.ok ⟨0, 1, 5⟩, .error (.overflow 10)] := by
    decide +kernel
  have hsmall : items ⟨.reject, some 10⟩ (0x7f :: List.replicate 9 0xff ++ [0x01, 0xff]) =
      [.ok ⟨0, 1, 0x7f⟩, .ok ⟨1, 10, 0xffffffffffffffff⟩, .error (.incomplete 11 1)] := by
    decide +kernel
  obtain ⟨hwrap, hreject⟩ := framing_by_tops (some 10) htops
  refine ⟨hwrap, hreject 1 ?_ ?_, ?_, ?_⟩
  · intro i
    rw [hlarge]
    simp
  · intro i
    rw [hsmall]
    simp
  · rw [hlarge]
    rfl
  · rw [hsmall]
    rfl

end Base128

import Base128.Proofs.Chunks

/-! # Settings that refuse less

Settings are relaxed by wrapping numbers that were refused for their size, and
by raising the limit on the length or lifting it. A stream can only gain from
that: what was read under the strict settings is read **in the same way** under
the loose ones, and the two part where a fault is lifted, and nowhere else.

* `Settings.Relaxes` — one pair of settings relaxes another.
* `Fault.Lifted` — the faults that are about what was relaxed.
* `Encodes.relaxed`, `decode_relaxed_iff` — one value: it stays as it is, and so
  does a fault, **unless** it is lifted.
* `items_relaxed` — whole streams, with the two ways of treating large numbers
  as a special case.
-/

namespace Base128

/-! ## Relaxed settings -/

/-- `loose` refuses nothing that `strict` takes. Large numbers are treated alike,
or wrapped instead of refused, and the limit on the length is lifted, or at
least as large as it was. -/
structure Settings.Relaxes (loose strict : Settings) : Prop where
  overflow : loose.overflow = strict.overflow ∨
    (strict.overflow = .reject ∧ loose.overflow = .wrap)
  maxLength : loose.maxLength = none ∨
    ∃ small large, strict.maxLength = some small ∧ loose.maxLength = some large ∧ small ≤ large

/-- The fault is about what `loose` no longer refuses. -/
def Fault.Lifted (strict loose : Settings) : Fault → Prop
  | .overflow _ => strict.overflow = .reject ∧ loose.overflow = .wrap
  | .tooLong _ _ => loose.maxLength ≠ strict.maxLength
  | _ => False

/-- A fault is about the same thing wherever it is counted from. -/
@[simp] theorem Fault.lifted_rebase_iff {strict loose : Settings} {fault : Fault} (base : ℕ) :
    (fault.rebase base).Lifted strict loose ↔ fault.Lifted strict loose := by
  cases fault <;> exact Iff.rfl

/-- Wrapping relaxes refusing. -/
theorem Settings.relaxes_wrap (limit : Option ℕ) :
    Settings.Relaxes ⟨.wrap, limit⟩ ⟨.reject, limit⟩ := by
  refine ⟨Or.inr ⟨rfl, rfl⟩, ?_⟩
  cases limit with
  | none => exact Or.inl rfl
  | some limit => exact Or.inr ⟨limit, limit, rfl, rfl, le_rfl⟩

/-- Where nothing but the treatment of large numbers differs, an overflow is lifted, and
nothing else. -/
theorem Fault.lifted_wrap_iff {limit : Option ℕ} {fault : Fault} :
    fault.Lifted ⟨.reject, limit⟩ ⟨.wrap, limit⟩ ↔ ∃ i, fault = .overflow i := by
  cases fault <;> simp [Fault.Lifted]

namespace Settings.Relaxes

variable {strict loose : Settings}

theorem allows (h : loose.Relaxes strict) {length : ℕ} (hallows : strict.Allows length) :
    loose.Allows length := by
  intro limit hlimit
  rcases h.maxLength with hnone | ⟨small, large, hsmall, hlarge, hle⟩
  · rw [hnone] at hlimit
    simp at hlimit
  · have hlength : length ≤ small := hallows small hsmall
    rw [hlarge] at hlimit
    obtain rfl := Option.some.inj hlimit
    exact hlength.trans hle

theorem fits (h : loose.Relaxes strict) {number : ℕ} (hfits : strict.Fits number) :
    loose.Fits number := by
  intro hreject
  rcases h.overflow with hsame | ⟨-, hwrap⟩
  · exact hfits (hsame ▸ hreject)
  · rw [hwrap] at hreject
    simp at hreject

theorem unfinished (h : loose.Relaxes strict) {bytes : Bytes}
    (hpassed : Unfinished strict bytes) : Unfinished loose bytes where
  continues := hpassed.continues
  allowed := h.allows hpassed.allowed
  fits := h.fits hpassed.fits

end Settings.Relaxes

/-! ## One value -/

variable {strict loose settings : Settings} {bytes : Bytes}

/-- An encoding stays one, of the same value. -/
theorem Encodes.relaxed {value : UInt64} (hencodes : Encodes strict bytes value)
    (h : loose.Relaxes strict) : Encodes loose bytes value where
  terminated := hencodes.terminated
  allowed := h.allows hencodes.allowed
  fits := h.fits hencodes.fits
  value_eq := hencodes.value_eq

/-- Where numbers are wrapped, none is too large. -/
theorem decode_ne_overflow (hwrap : settings.overflow = .wrap) (bytes : Bytes) (i : ℕ) :
    decode settings bytes ≠ .error (.overflow i) := by
  intro h
  have hending := readFront_eq_iff.mp (decode_eq_error_iff.mp h)
  cases hending with
  | overflow passed allowed refused =>
    apply refused
    intro hreject
    rw [hwrap] at hreject
    simp at hreject

/-- A fault that is not lifted stays. -/
theorem decode_relaxed_of_not_lifted (h : loose.Relaxes strict) {fault : Fault}
    (hdecode : decode strict bytes = .error fault) (hkept : ¬ fault.Lifted strict loose) :
    decode loose bytes = .error fault := by
  have hending := readFront_eq_iff.mp (decode_eq_error_iff.mp hdecode)
  apply decode_eq_error_iff.mpr
  apply readFront_of_ending
  cases hending with
  | incomplete passed => exact .incomplete (h.unfinished passed)
  | tooLong passed limit =>
    have hsame : loose.maxLength = strict.maxLength := by
      by_contra hraised
      exact hkept hraised
    exact .tooLong (h.unfinished passed) (hsame.trans limit)
  | @overflow front rest byte passed allowed refused =>
    have hreject : strict.overflow = .reject := by
      by_contra hwrap
      exact refused fun hreject => absurd hreject hwrap
    have hsame : loose.overflow = strict.overflow := by
      rcases h.overflow with hsame | ⟨-, hwrap⟩
      · exact hsame
      · exact absurd ⟨hreject, hwrap⟩ hkept
    have hrefused : ¬ loose.Fits (magnitude (front ++ [byte])) := by
      intro hfits
      exact refused fun hreject' => hfits (hsame.trans hreject')
    exact .overflow (h.unfinished passed) (h.allows allowed) hrefused

/-- A fault that is lifted does not come back in the same form. -/
theorem decode_ne_of_lifted {fault : Fault} (hdecode : decode strict bytes = .error fault)
    (hlifted : fault.Lifted strict loose) : decode loose bytes ≠ .error fault := by
  intro hloose
  cases fault with
  | missingArgument given => exact hlifted
  | incomplete offset consumed => exact hlifted
  | valueTooLarge offset value width => exact hlifted
  | overflow i => exact decode_ne_overflow hlifted.2 bytes i hloose
  | tooLong i limit =>
    -- the fault names the limit, so both settings would have that one
    have hlimit {settings : Settings} (h : decode settings bytes = .error (.tooLong i limit)) :
        settings.maxLength = some limit := by
      rcases decode_error_position h with heq | ⟨index, heq, -⟩ | ⟨bound, heq, -, hmax⟩
      · simp at heq
      · simp at heq
      · obtain ⟨-, rfl⟩ := Fault.tooLong.inj heq
        exact hmax
    exact hlifted ((hlimit hloose).trans (hlimit hdecode).symm)

/-- **One fault.** Under the loose settings it stays exactly where it is not
lifted. -/
theorem decode_relaxed_iff (h : loose.Relaxes strict) {fault : Fault}
    (hdecode : decode strict bytes = .error fault) :
    decode loose bytes = .error fault ↔ ¬ fault.Lifted strict loose := by
  constructor
  · intro hloose hlifted
    exact decode_ne_of_lifted hdecode hlifted hloose
  · exact decode_relaxed_of_not_lifted h hdecode

/-! ## Whole streams -/

/-- A fault is the only item where decoding fails with it at the front. -/
theorem items_eq_error_iff {fault : Fault} (hne : bytes ≠ []) :
    items settings bytes = [.error fault] ↔ decode settings bytes = .error fault := by
  constructor
  · intro hitems
    cases hdecode : decode settings bytes with
    | error other =>
      rw [items_of_error hne hdecode] at hitems
      simpa using hitems
    | ok result =>
      -- the first item would have been a value
      rcases decode_eq_ok_iff.mp hdecode with ⟨front, rfl, hencodes⟩
      rw [items_encoded hencodes] at hitems
      simp at hitems
  · exact items_of_error hne

/-- What a stream ends with is what it ends with behind its first value. -/
theorem getLast?_items_encoded {front : Bytes} {value : UInt64}
    (h : Encodes settings front value) (rest : Bytes) (fault : Fault) :
    (items settings (front ++ rest)).getLast? = some (.error fault) ↔
      ∃ cause, (items settings rest).getLast? = some (.error cause) ∧
        fault = cause.rebase front.length := by
  rw [items_encoded h, List.getLast?_cons, List.getLast?_map]
  cases hlast : (items settings rest).getLast? with
  | none => simp
  | some item =>
    cases item with
    | ok field => simp
    | error cause => simp [eq_comm]

/-- Where numbers are wrapped, no item is about a number that is too large. -/
theorem overflow_notMem_items (hwrap : settings.overflow = .wrap) (bytes : Bytes) (i : ℕ) :
    .error (.overflow i) ∉ items settings bytes := by
  induction bytes using stream_induction settings generalizing i with
  | finished => simp
  | malformed bytes fault hne hdecode =>
    rw [items_of_error hne hdecode, List.mem_singleton]
    intro heq
    rw [← Except.error.inj heq] at hdecode
    exact decode_ne_overflow hwrap bytes i hdecode
  | value front value rest hencodes ih =>
    rw [items_encoded hencodes]
    intro hmem
    rcases List.mem_cons.mp hmem with heq | hmem
    · simp at heq
    · rcases List.mem_map.mp hmem with ⟨item, hitem, hmoved⟩
      -- only an overflow is moved to an overflow
      rcases item with (_ | _ | j | _ | _) | field
      case error.overflow => exact ih j hitem
      all_goals simp [Fault.rebase] at hmoved

/-- What was read stays, at the front of all that is read. -/
theorem completeFields_isPrefix_items (h : loose.Relaxes strict) (bytes : Bytes) :
    (completeFields strict bytes).map .ok <+: items loose bytes := by
  induction bytes using stream_induction strict with
  | finished => simp
  | malformed bytes fault hne hdecode =>
    rw [completeFields_of_error hne hdecode]
    exact List.nil_prefix
  | value front value rest hencodes ih =>
    have hmoved := ih.map (Item.moved front.length)
    rw [completeFields_encoded hencodes, items_encoded (hencodes.relaxed h), List.map_cons,
      List.prefix_cons_inj]
    simpa [Function.comp_def] using hmoved

/-- Looser settings leave the items alone as far as none is a fault that is lifted. -/
theorem take_items_relaxed {strict loose : Settings} (h : loose.Relaxes strict) (bytes : Bytes)
    (n : ℕ) (hkept : ∀ fault, .error fault ∈ (items strict bytes).take n →
      ¬ fault.Lifted strict loose) :
    (items loose bytes).take n = (items strict bytes).take n := by
  induction bytes using stream_induction strict generalizing n with
  | finished => simp
  | malformed bytes fault hne hdecode =>
    cases n with
    | zero => simp
    | succ n =>
      rw [items_of_error hne hdecode] at hkept ⊢
      have hloose := decode_relaxed_of_not_lifted h hdecode (hkept fault (by simp))
      rw [items_of_error hne hloose]
  | value front value rest hencodes ih =>
    cases n with
    | zero => simp
    | succ n =>
      rw [items_encoded hencodes, List.take_succ_cons, ← List.map_take] at hkept ⊢
      rw [items_encoded (hencodes.relaxed h), List.take_succ_cons, ← List.map_take, ih n]
      -- a fault behind the value is lifted exactly if it is lifted where it is seen from there
      intro fault hmem hlifted
      apply hkept (fault.rebase front.length)
      · exact List.mem_cons_of_mem _ (List.mem_map.mpr ⟨_, hmem, rfl⟩)
      · exact (Fault.lifted_rebase_iff _).mpr hlifted

/-- The items are the same exactly where no lifted fault ends them. -/
theorem items_eq_items_iff (h : loose.Relaxes strict) (bytes : Bytes) :
    items strict bytes = items loose bytes ↔
      ¬ ∃ fault, (items strict bytes).getLast? = some (.error fault) ∧
        fault.Lifted strict loose := by
  induction bytes using stream_induction strict with
  | finished => simp
  | malformed bytes fault hne hdecode =>
    rw [items_of_error hne hdecode, eq_comm, items_eq_error_iff hne,
      decode_relaxed_iff h hdecode]
    simp
  | value front value rest hencodes ih =>
    have hitems : items strict (front ++ rest) = items loose (front ++ rest) ↔
        items strict rest = items loose rest := by
      rw [items_encoded hencodes, items_encoded (hencodes.relaxed h), List.cons.injEq]
      simp [(List.map_injective_iff.mpr (Item.moved_injective front.length)).eq_iff]
    rw [hitems, ih, not_iff_not]
    -- the fault at the end is the same one, moved by the length of the value
    constructor
    · rintro ⟨cause, hlast, hlifted⟩
      exact ⟨_, (getLast?_items_encoded hencodes rest _).mpr ⟨cause, hlast, rfl⟩,
        (Fault.lifted_rebase_iff _).mpr hlifted⟩
    · rintro ⟨fault, hlast, hlifted⟩
      rcases (getLast?_items_encoded hencodes rest fault).mp hlast with ⟨cause, hcause, rfl⟩
      exact ⟨cause, hcause, (Fault.lifted_rebase_iff _).mp hlifted⟩

/-- **Relaxation.** Looser settings read all that the strict ones read, in the
same way, and the items are the same, with the fault at their end, exactly where
that fault is not lifted. Where numbers are wrapped, none is ever reported as too
large. So refusing and wrapping large numbers make no difference to a stream in
which none is refused. -/
theorem items_relaxed (bytes : Bytes) :
    (∀ strict loose : Settings, loose.Relaxes strict →
      (completeFields strict bytes).map .ok <+: items loose bytes ∧
      (items strict bytes = items loose bytes ↔
        ¬ ∃ fault, (items strict bytes).getLast? = some (.error fault) ∧
          fault.Lifted strict loose)) ∧
    (∀ settings : Settings, settings.overflow = .wrap →
      ∀ i, .error (.overflow i) ∉ items settings bytes) ∧
    (∀ limit : Option ℕ, (∀ i, .error (.overflow i) ∉ items ⟨.reject, limit⟩ bytes) →
      items ⟨.reject, limit⟩ bytes = items ⟨.wrap, limit⟩ bytes) := by
  refine ⟨?_, ?_, ?_⟩
  · intro strict loose h
    exact ⟨completeFields_isPrefix_items h bytes, items_eq_items_iff h bytes⟩
  · intro settings hwrap i
    exact overflow_notMem_items hwrap bytes i
  · intro limit hnone
    apply (items_eq_items_iff (Settings.relaxes_wrap limit) bytes).mpr
    rintro ⟨fault, hlast, hlifted⟩
    -- the limit is the same, so nothing but an overflow is lifted
    obtain ⟨i, rfl⟩ := Fault.lifted_wrap_iff.mp hlifted
    exact hnone i (List.mem_of_getLast? hlast)

/-- The second value is one byte too long, and more than one byte is allowed
later: the stream is read on, and wrapping makes no difference to it. -/
theorem items_relaxed_longer :
    items ⟨.reject, some 1⟩ [0x05, 0x80, 0x01] = [.ok ⟨0, 1, 5⟩, .error (.tooLong 2 1)] ∧
      [.ok ⟨0, 1, 5⟩] <+: items ⟨.wrap, some 2⟩ [0x05, 0x80, 0x01] ∧
      items ⟨.reject, some 1⟩ [0x05, 0x80, 0x01] ≠ items ⟨.wrap, some 2⟩ [0x05, 0x80, 0x01] ∧
      .error (.overflow 2) ∉ items ⟨.wrap, some 2⟩ [0x05, 0x80, 0x01] ∧
      items ⟨.reject, some 1⟩ [0x05, 0x80, 0x01] = items ⟨.wrap, some 1⟩ [0x05, 0x80, 0x01] := by
  have hitems : items ⟨.reject, some 1⟩ [0x05, 0x80, 0x01] =
      [.ok ⟨0, 1, 5⟩, .error (.tooLong 2 1)] := by
    decide +kernel
  have hrelaxes : Settings.Relaxes ⟨.wrap, some 2⟩ ⟨.reject, some 1⟩ :=
    ⟨Or.inr ⟨rfl, rfl⟩, Or.inr ⟨1, 2, rfl, rfl, by decide⟩⟩
  rcases items_relaxed [0x05, 0x80, 0x01] with ⟨hall, hwrap, hpolicy⟩
  rcases hall _ _ hrelaxes with ⟨hread, hsame⟩
  rw [completeFields, hitems] at hread
  refine ⟨hitems, hread, ?_, hwrap _ rfl 2, ?_⟩
  · intro heq
    apply hsame.mp heq
    refine ⟨.tooLong 2 1, by rw [hitems]; rfl, ?_⟩
    simp [Fault.Lifted]
  · apply hpolicy
    intro i
    rw [hitems]
    simp

end Base128

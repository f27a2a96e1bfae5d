import Base128.Proofs.Agreement
import Base128.Proofs.Concatenation
import Base128.Proofs.Printed
import Base128.Proofs.Rows

/-! # One value at a time

A readout of one value prints the bytes that it leaves over, and these can be
given to the next readout as they are printed. Going on so until nothing is left
over is as good as a table of all values.

* `Readout.Rerun` — readouts in a row, each of **what the one before printed**.
  All that passes between them is text.
* `Readout.RunsTo` — how readouts in a row must go on some bytes, one lemma for
  each way in which the first of them goes.
* `Readout.exists_outcome` — on the way they tell the fields of the stream, and
  they stop where its items stop.
* `Readout.rerun_eq_all` — so they print the same values as the table, and fail
  with the same fault, at its place in what was left over.
-/

namespace Base128

namespace Readout

/-- Readouts in a row, with what they tell and with the failure of the last one
if it fails. Each is run on the very text that the one before printed behind
`remainder: `, until that is the note that there is nothing. -/
inductive Rerun (settings : Settings) : String → List Printed → Option Failure → Prop where
  | last {argument text : String} {one : Printed}
      (prints : render settings false [argument] = .ok text)
      (reads : reread? text = some one) (nothing : one.remainder = "(empty)") :
      Rerun settings argument [one] none
  | again {argument text : String} {one : Printed} {others : List Printed}
      {failure? : Option Failure} (prints : render settings false [argument] = .ok text)
      (reads : reread? text = some one) (something : one.remainder ≠ "(empty)")
      (goes_on : Rerun settings one.remainder others failure?) :
      Rerun settings argument (one :: others) failure?
  | fails {argument : String} {failure : Failure}
      (refuses : render settings false [argument] = .error failure) :
      Rerun settings argument [] (some failure)

variable {settings : Settings} {argument : String} {bytes front rest : Bytes} {value : UInt64}
  {printed : List Printed} {failure? : Option Failure}

/-! ## The first readout -/

/-- A readout of one value shows what decoding gives. -/
theorem render_first (h : HexArgument.decode argument = .ok bytes) :
    render settings false [argument] =
      match decode settings bytes with
      | .error fault => .error (.undecodable fault)
      | .ok (value, rest) =>
        .ok (Readout.front value (bytes.length - rest.length) rest) := by
  unfold render
  rw [buffers_singleton h]
  rfl

theorem render_encoded (hfront : Encodes settings front value)
    (h : HexArgument.decode argument = .ok (front ++ rest)) :
    render settings false [argument] = .ok (Readout.front value front.length rest) := by
  have hdecode : decode settings (front ++ rest) = .ok (value, rest) :=
    decode_eq_ok_iff.mpr ⟨front, rfl, hfront⟩
  have hlength : (front ++ rest).length - rest.length = front.length := by
    simp
  rw [render_first h, hdecode]
  simp only [hlength]

/-- After a readout that prints, readouts in a row are over or go on with what it
left over. -/
theorem rerun_iff_of_ok {text : String} {one : Printed}
    (hrender : render settings false [argument] = .ok text) (hread : reread? text = some one) :
    Rerun settings argument printed failure? ↔
      (one.remainder = "(empty)" ∧ failure? = none ∧ printed = [one]) ∨
        (one.remainder ≠ "(empty)" ∧
          ∃ others, Rerun settings one.remainder others failure? ∧ printed = one :: others) := by
  -- a readout prints one text, and that text tells one thing
  have hone : ∀ {other : String} {two : Printed}, render settings false [argument] = .ok other →
      reread? other = some two → two = one := by
    intro other two prints reads
    rw [hrender] at prints
    obtain rfl := Except.ok.inj prints
    rw [hread] at reads
    exact (Option.some.inj reads).symm
  constructor
  · intro hrun
    cases hrun with
    | last prints reads nothing =>
      obtain rfl := hone prints reads
      exact Or.inl ⟨nothing, rfl, rfl⟩
    | again prints reads something goes_on =>
      obtain rfl := hone prints reads
      exact Or.inr ⟨something, _, goes_on, rfl⟩
    | fails refuses => simp [hrender] at refuses
  · rintro (⟨nothing, rfl, rfl⟩ | ⟨something, others, goes_on, rfl⟩)
    · exact .last hrender hread nothing
    · exact .again hrender hread something goes_on

/-- How readouts in a row go on `bytes`, whatever argument stands for them: they
tell what is `printed`, end with `failure?`, and there is no other way. -/
def RunsTo (settings : Settings) (bytes : Bytes) (printed : List Printed)
    (failure? : Option Failure) : Prop :=
  ∀ argument, HexArgument.decode argument = .ok bytes → ∀ others other?,
    Rerun settings argument others other? ↔ other? = failure? ∧ others = printed

/-- Where the first readout fails there is no other one. -/
theorem runsTo_of_error {fault : Fault} (hdecode : decode settings bytes = .error fault) :
    RunsTo settings bytes [] (some (.undecodable fault)) := by
  intro argument h others other?
  have hrender : render settings false [argument] = .error (.undecodable fault) := by
    rw [render_first h, hdecode]
  constructor
  · intro hrun
    cases hrun with
    | last prints | again prints => simp [hrender] at prints
    | fails refuses =>
      rw [hrender] at refuses
      obtain rfl := Except.error.inj refuses
      exact ⟨rfl, rfl⟩
  · rintro ⟨rfl, rfl⟩
    exact .fails hrender

/-- Where the first readout leaves nothing over it is the only one. -/
theorem runsTo_last (hfront : Encodes settings front value) :
    RunsTo settings front [⟨value.toNat, front.length, leftOver []⟩] none := by
  intro argument h others other?
  rw [← List.append_nil front] at h
  rw [rerun_iff_of_ok (render_encoded hfront h) (reread?_front value front.length [])]
  simp [leftOver]

/-- Where the first readout leaves something over, the others are those of what
it leaves over. -/
theorem runsTo_again (hfront : Encodes settings front value) (hne : rest ≠ [])
    (hrest : RunsTo settings rest printed failure?) :
    RunsTo settings (front ++ rest) (⟨value.toNat, front.length, leftOver rest⟩ :: printed)
      failure? := by
  intro argument h others other?
  rw [rerun_iff_of_ok (render_encoded hfront h) (reread?_front value front.length rest)]
  simp [leftOver_eq_empty_iff, hne, hrest _ (decode_leftOver hne), and_assoc]

/-! ## All readouts -/

/-- What a readout tells of a field, when it was run on the field and all that
stands behind it in `bytes`. -/
def Printed.ofField (bytes : Bytes) (field : Field) : Printed :=
  ⟨field.value.toNat, field.length, leftOver (bytes.drop field.stop)⟩

/-- The fields behind a value leave over the same as without it. -/
theorem Printed.ofField_moved (front rest : Bytes) (field : Field) :
    Printed.ofField (front ++ rest) (field.moved front.length) = Printed.ofField rest field := by
  have hstop : (field.moved front.length).stop = front.length + field.stop := by
    simp only [Field.moved, Field.stop]
    omega
  rw [Printed.ofField, hstop, ← List.drop_drop, List.drop_left]
  rfl

theorem map_ofField_encoded (hfront : Encodes settings front value) (rest : Bytes) :
    (completeFields settings (front ++ rest)).map (Printed.ofField (front ++ rest)) =
      ⟨value.toNat, front.length, leftOver rest⟩ ::
        (completeFields settings rest).map (Printed.ofField rest) := by
  have hfirst : Printed.ofField (front ++ rest) ⟨0, front.length, value⟩ =
      ⟨value.toNat, front.length, leftOver rest⟩ := by
    rw [Printed.ofField, Field.stop, Nat.zero_add, List.drop_left]
  rw [completeFields_encoded hfront, List.map_cons, List.map_map, hfirst]
  congr 1
  apply List.map_congr_left
  intro field _
  exact Printed.ofField_moved front rest field

/-- **The outcome.** Readouts in a row tell the fields of the stream one by one.
If they fail, then on the fault that ends its items, at the place that the fault
has in what was left over. -/
theorem exists_outcome (settings : Settings) (bytes : Bytes) (hne : bytes ≠ []) :
    ∃ cause? : Option Fault,
      items settings bytes = (completeFields settings bytes).map .ok ++
        (cause?.map fun cause => .error (cause.rebase (completeLength settings bytes))).toList ∧
      RunsTo settings bytes ((completeFields settings bytes).map (Printed.ofField bytes))
        (cause?.map .undecodable) := by
  induction bytes using stream_induction settings with
  | finished => exact absurd rfl hne
  | malformed bytes fault _ hdecode =>
    have hfields := completeFields_of_error hne hdecode
    refine ⟨some fault, ?_, ?_⟩
    · rw [items_of_error hne hdecode, completeLength, hfields]
      simp
    · rw [hfields]
      exact runsTo_of_error hdecode
  | value front value rest hfront ih =>
    rw [map_ofField_encoded hfront, completeFields_encoded hfront, completeLength_encoded hfront,
      items_encoded hfront]
    by_cases hrest : rest = []
    · subst hrest
      refine ⟨none, by simp, ?_⟩
      rw [completeFields_nil, List.append_nil]
      exact runsTo_last hfront
    · rcases ih hrest with ⟨cause?, hitems, hruns⟩
      refine ⟨cause?, ?_, runsTo_again hfront hrest hruns⟩
      rw [hitems]
      cases cause? with
      | none => simp [Function.comp_def]
      | some cause => simp [Function.comp_def, Fault.rebase_rebase, Nat.add_comm]

/-! ## Against the table -/

theorem table_append (fields : List Field) (back : List Item) :
    table (fields.map .ok ++ back) =
      (table back).map (Text.lines (fields.map Field.row) ++ ·) := by
  induction fields with
  | nil =>
    cases hback : table back with
    | error failure => simp [hback, Except.map]
    | ok text => simp [hback, Except.map]
  | cons field fields ih =>
    rw [List.map_cons, List.cons_append, table, ih]
    cases table back with
    | error failure => rfl
    | ok text => simp [Except.map, Text.lines_cons, String.append_assoc]

/-- **One value at a time.** Where there is a table of all values, readouts in a
row tell the values and the lengths that its rows tell, and come to an end; a row's
position is what the rows before it take up. Where there is none, readouts in a
row tell the complete values and then fail on the same fault, the position of
which in the stream is that in what was left over, with the lengths before it. In
both cases there is no other way for them to go. -/
theorem rerun_eq_all (settings : Settings) {argument : String} {bytes : Bytes}
    (h : HexArgument.decode argument = .ok bytes) :
    (∀ i (hi : i < (completeFields settings bytes).length),
      (completeFields settings bytes)[i].offset =
        (((completeFields settings bytes).take i).map Field.length).sum) ∧
    (∀ text, render settings true [argument] = .ok text →
      text = Text.lines ((completeFields settings bytes).map Field.row) ∧
      Row.ofTable? text = some ((completeFields settings bytes).map fun field =>
        ⟨field.offset, field.length, field.value.toNat, field.value.toNat⟩) ∧
      ∀ printed failure?, Rerun settings argument printed failure? ↔
        failure? = none ∧
          printed = (completeFields settings bytes).map (Printed.ofField bytes)) ∧
    ∀ failure, render settings true [argument] = .error failure →
      ∃ cause,
        failure = .undecodable
          (cause.rebase ((completeFields settings bytes).map Field.length).sum) ∧
        ∀ printed failure?, Rerun settings argument printed failure? ↔
          failure? = some (.undecodable cause) ∧
            printed = (completeFields settings bytes).map (Printed.ofField bytes) := by
  refine ⟨?_, ?_⟩
  · rcases completeFields_laidOut settings bytes with ⟨parts, hparts⟩
    rw [hparts]
    exact offset_laidOut parts
  · by_cases hne : bytes = []
    · -- an empty stream fails at once, in a table as in a readout
      subst hne
      rw [render_nil h, completeFields_nil]
      refine ⟨by simp, ?_⟩
      intro failure hfailure
      obtain rfl := Except.error.inj hfailure
      exact ⟨.incomplete 0 0, rfl, runsTo_of_error (decode_nil settings) argument h⟩
    · rcases exists_outcome settings bytes hne with ⟨cause?, hitems, hruns⟩
      rw [render_all h hne, hitems, table_append]
      cases cause? with
      | none =>
        refine ⟨?_, by simp [table, Except.map]⟩
        intro text htext
        have hrows : text = Text.lines ((completeFields settings bytes).map Field.row) :=
          (Except.ok.inj htext).symm.trans String.append_empty
        rw [hrows]
        exact ⟨rfl, Row.ofTable?_lines _, hruns argument h⟩
      | some cause =>
        refine ⟨by simp [table, Except.map], ?_⟩
        intro failure hfailure
        obtain rfl := Except.error.inj hfailure
        exact ⟨cause, rfl, hruns argument h⟩

/-- A value and a half, and two values. -/
theorem rerun_eq_all_pair :
    render {} true ["0xE5 8E 26 80"] = .error (.undecodable (.incomplete 3 1)) ∧
      Rerun {} "0xE5 8E 26 80" [⟨624485, 3, "80"⟩] (some (.undecodable (.incomplete 0 1))) ∧
      render {} true ["01:FF7F"] =
        .ok "0x0000  len=1  value=1 (0x1)\n0x0001  len=2  value=16383 (0x3fff)\n" ∧
      Rerun {} "01:FF7F" [⟨1, 1, "ff7f"⟩, ⟨16383, 2, "(empty)"⟩] none := by
  have hhalf : HexArgument.decode "0xE5 8E 26 80" = .ok [0xE5, 0x8E, 0x26, 0x80] := by
    decide +kernel
  have hpair : HexArgument.decode "01:FF7F" = .ok [0x01, 0xFF, 0x7F] := by
    decide +kernel
  have hfails : render {} true ["0xE5 8E 26 80"] = .error (.undecodable (.incomplete 3 1)) := by
    decide +kernel
  have hprints : render {} true ["01:FF7F"] =
      .ok "0x0000  len=1  value=1 (0x1)\n0x0001  len=2  value=16383 (0x3fff)\n" := by
    decide +kernel
  rcases (rerun_eq_all {} hhalf).2.2 _ hfails with ⟨cause, hcause, hruns⟩
  rcases (rerun_eq_all {} hpair).2.1 _ hprints with ⟨-, -, hpairs⟩
  have hsum : ((completeFields {} [0xE5, 0x8E, 0x26, 0x80]).map Field.length).sum = 3 := by
    decide +kernel
  have hrelative : cause = .incomplete 0 1 := by
    rw [hsum] at hcause
    have hrebase : Fault.rebase 3 (.incomplete 0 1) = cause.rebase 3 :=
      Failure.undecodable.inj hcause
    exact (Fault.rebase_injective 3 hrebase).symm
  refine ⟨hfails, (hruns _ _).mpr ⟨by rw [hrelative], ?_⟩, hprints, (hpairs _ _).mpr ⟨rfl, ?_⟩⟩
  · decide +kernel
  · decide +kernel

end Readout

end Base128

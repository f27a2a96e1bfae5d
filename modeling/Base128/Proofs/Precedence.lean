import Base128.Command.Invocation
import Base128.Proofs.Agreement
import Base128.Proofs.Dressed

/-! # Which argument decides

All arguments of a readout have to be bytes in hexadecimal, and only the first one is shown.
So one that is not decides over everything else, however well the first one would decode.
Where all of them are, those behind the first one **decide nothing**, and of the first one
only the bytes count, not the way in which they are written.

* `HexArgument.IsHex` — the argument is a way to write some bytes.
* `Readout.exists_buffers_iff` — a list of arguments passes exactly if all of them are bytes.
* `Readout.exists_leftmost_of_buffers_error` — else the leftmost one that is none is to blame.
* `Readout.render_eq_of_decode` — what is shown depends on the bytes of the first argument.
* `Readout.first_decides` — the order in which a list of arguments is judged.
-/

namespace Base128

/-- The argument is a way to write some bytes. -/
def HexArgument.IsHex (argument : String) : Prop := ∃ bytes, Dressed bytes argument.toList

open HexArgument (Dressed IsHex)

theorem HexArgument.isHex_iff {argument : String} :
    IsHex argument ↔ ∃ bytes, decode argument = .ok bytes := by
  simp only [IsHex, decode_eq_ok_iff_dressed]

theorem HexArgument.not_isHex_iff {argument : String} :
    ¬ IsHex argument ↔ ∃ fault, decode argument = .error fault := by
  rw [isHex_iff]
  cases decode argument with
  | error fault => simp
  | ok bytes => simp

namespace Readout

variable {settings : Settings} {all : Bool} {arguments : List String}

/-! ## Lists of arguments -/

/-- Nothing is to blame exactly where all arguments are bytes. -/
theorem exists_buffers_iff :
    (∃ buffers, Readout.buffers arguments = .ok buffers) ↔
      ∀ argument ∈ arguments, IsHex argument := by
  induction arguments with
  | nil => simp [Readout.buffers]
  | cons argument arguments ih =>
    rw [List.forall_mem_cons, ← ih, HexArgument.isHex_iff, Readout.buffers]
    cases HexArgument.decode argument with
    | error fault => simp
    | ok bytes =>
      cases Readout.buffers arguments with
      | error failure => simp [Except.map]
      | ok others => simp [Except.map]

/-- Only an argument that is no bytes can be to blame, and of several the leftmost one. -/
theorem exists_leftmost_of_buffers_error {failure : Failure}
    (h : Readout.buffers arguments = .error failure) :
    ∃ front bad back fault, arguments = front ++ bad :: back ∧
      (∀ argument ∈ front, IsHex argument) ∧ HexArgument.decode bad = .error fault ∧
      failure = .badHex bad fault := by
  induction arguments with
  | nil => simp [Readout.buffers] at h
  | cons argument arguments ih =>
    rw [Readout.buffers] at h
    cases hdecode : HexArgument.decode argument with
    | error fault =>
      -- the first argument is to blame, so there is nothing in front of it
      rw [hdecode] at h
      exact ⟨[], argument, arguments, fault, rfl, by simp, hdecode, (Except.error.inj h).symm⟩
    | ok bytes =>
      simp only [hdecode] at h
      cases hothers : Readout.buffers arguments with
      | ok others => simp [hothers, Except.map] at h
      | error other =>
        simp only [hothers, Except.map, Except.error.injEq] at h
        subst h
        obtain ⟨front, bad, back, fault, rfl, hfront, hbad, rfl⟩ := ih hothers
        refine ⟨argument :: front, bad, back, fault, rfl, ?_, hbad, rfl⟩
        exact List.forall_mem_cons.mpr ⟨HexArgument.isHex_iff.mpr ⟨bytes, hdecode⟩, hfront⟩

/-! ## The first argument -/

/-- **Only the bytes of the first argument count**, if there is one and all arguments are
bytes. -/
theorem render_eq_of_decode {first second : String} {others : List String} {bytes : Bytes}
    (hfirst : HexArgument.decode first = .ok bytes)
    (hsecond : HexArgument.decode second = .ok bytes)
    (hothers : ∀ argument ∈ others, IsHex argument) :
    render settings all (first :: others) = render settings all [second] := by
  obtain ⟨buffers, hbuffers⟩ := exists_buffers_iff.mpr hothers
  have hall : Readout.buffers (first :: others) = .ok (bytes :: buffers) := by
    rw [Readout.buffers, hfirst, hbuffers]
    rfl
  unfold render
  rw [hall, buffers_singleton hsecond]
  rfl

/-- **Which argument decides.** If some argument is no bytes, the leftmost such one is to
blame, whatever the others are. If there is none at all, that is what is wrong. And if all
are bytes, it is as if the first one were alone: arguments behind it make no difference,
nor does the way in which its bytes are written, to what is shown and to the outcome. -/
theorem first_decides (settings : Settings) (all : Bool) :
    (∀ arguments, (∃ argument ∈ arguments, ¬ IsHex argument) →
      ∃ front bad back fault, arguments = front ++ bad :: back ∧
        (∀ argument ∈ front, IsHex argument) ∧ HexArgument.decode bad = .error fault ∧
        render settings all arguments = .error (.badHex bad fault) ∧
        (Failure.badHex bad fault).chain =
          ["invalid hex argument " ++ Text.quotedText bad, fault.message]) ∧
    (render settings all [] = .error (.undecodable (.missingArgument 0)) ∧
      (Failure.undecodable (.missingArgument 0)).chain =
        ["cannot decode input", "wrong number of arguments (given 0, expected at least 1)"]) ∧
    (∀ first others, (∀ argument ∈ first :: others, IsHex argument) →
      render settings all (first :: others) = render settings all [first]) ∧
    ∀ bytes first others second more, Dressed bytes first.toList → Dressed bytes second.toList →
      (∀ argument ∈ others ++ more, IsHex argument) →
      render settings all (first :: others) = render settings all (second :: more) ∧
        ∀ (files : Files) (verbose : Bool),
          (⟨.decode (first :: others) all, settings, verbose⟩ : Invocation).run files =
            (⟨.decode (second :: more) all, settings, verbose⟩ : Invocation).run files := by
  refine ⟨?_, ⟨rfl, ?_⟩, ?_, ?_⟩
  · intro arguments hbad
    obtain ⟨argument, hmem, hno⟩ := hbad
    cases hbuffers : Readout.buffers arguments with
    | ok buffers => exact absurd (exists_buffers_iff.mp ⟨buffers, hbuffers⟩ argument hmem) hno
    | error failure =>
      obtain ⟨front, bad, back, fault, hsplit, hfront, hfault, rfl⟩ :=
        exists_leftmost_of_buffers_error hbuffers
      have hrender : render settings all arguments = .error (.badHex bad fault) := by
        rw [render, hbuffers]
      exact ⟨front, bad, back, fault, hsplit, hfront, hfault, hrender, rfl⟩
  · decide
  · intro first others hhex
    obtain ⟨hfirst, hothers⟩ := List.forall_mem_cons.mp hhex
    obtain ⟨bytes, hdecode⟩ := HexArgument.isHex_iff.mp hfirst
    exact render_eq_of_decode hdecode hdecode hothers
  · intro bytes first others second more hfirst hsecond hhex
    obtain ⟨hothers, hmore⟩ := List.forall_mem_append.mp hhex
    have hdecode := (HexArgument.decode_eq_ok_iff_dressed first bytes).mpr hfirst
    have hdecode' := (HexArgument.decode_eq_ok_iff_dressed second bytes).mpr hsecond
    have hrender : render settings all (first :: others) =
        render settings all (second :: more) := by
      rw [render_eq_of_decode hdecode hdecode' hothers,
        render_eq_of_decode hdecode' hdecode' hmore]
    refine ⟨hrender, ?_⟩
    intro files verbose
    simp only [Invocation.run, Command.effect, Command.decodeEffect, hrender]

/-- Of `0x80 zz 0g` the second argument is to blame, although the first has no value to show;
and two ways to write `E5 8E 26` show the same, whether or not `ff` stands behind. -/
theorem first_decides_respelled :
    (∃ front bad back fault, ["0x80", "zz", "0g"] = front ++ bad :: back ∧
      (∀ argument ∈ front, IsHex argument) ∧ HexArgument.decode bad = .error fault ∧
      render ⟨.reject, none⟩ true ["0x80", "zz", "0g"] = .error (.badHex bad fault) ∧
      (Failure.badHex bad fault).chain =
        ["invalid hex argument " ++ Text.quotedText bad, fault.message]) ∧
    render ⟨.reject, none⟩ true ["0xE5 8E 26", "ff"] =
      render ⟨.reject, none⟩ true ["0xE5 8E 26"] ∧
    render ⟨.reject, none⟩ true ["0xE5 8E 26", "ff"] =
      render ⟨.reject, none⟩ true ["e5:8e:26"] := by
  have hbad : ¬ IsHex "zz" :=
    HexArgument.not_isHex_iff.mpr ⟨.notDigit 0x7a 0, by decide +kernel⟩
  have hextra : IsHex "ff" := HexArgument.isHex_iff.mpr ⟨[0xff], by decide +kernel⟩
  have hupper : Dressed [0xe5, 0x8e, 0x26] "0xE5 8E 26".toList :=
    (HexArgument.decode_eq_ok_iff_dressed _ _).mp (by decide +kernel)
  have hlower : Dressed [0xe5, 0x8e, 0x26] "e5:8e:26".toList :=
    (HexArgument.decode_eq_ok_iff_dressed _ _).mp (by decide +kernel)
  obtain ⟨hleftmost, -, halone, hspelling⟩ := first_decides ⟨.reject, none⟩ true
  refine ⟨hleftmost _ ⟨"zz", by simp, hbad⟩, halone _ _ ?_,
    (hspelling _ _ _ _ _ hupper hlower ?_).1⟩
  · simp only [List.forall_mem_cons]
    exact ⟨⟨_, hupper⟩, hextra, by simp⟩
  · simp only [List.append_nil, List.forall_mem_cons]
    exact ⟨hextra, by simp⟩

end Readout

end Base128

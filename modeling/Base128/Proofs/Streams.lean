import Base128.Command.Invocation
import Base128.Proofs.Numerals
import Base128.Proofs.Paging
import Base128.Proofs.Precedence
import Base128.Proofs.Rerun

/-! # What comes on which stream

Where a value is malformed, **nothing** of a readout or a listing is on the first stream, and
what went wrong is on the second one. How much is to be told changes what stands in front of
that on the second stream, and nothing else.

* `Command.Fails` — the ways in which a command fails.
* `Command.effect_eq`, `Command.outcome_verbose` — what more a command does and leaves if
  everything is to be told.
* `Command.outcome_of_fails`, `Command.outcome_of_not_fails` — what it leaves otherwise.
* `Command.Fails.of_items`, `Command.Fails.of_table` — a malformed value makes a listing and
  a table fail, however many values stand in front of it.
* `Command.Streams`, `Command.streams` — the outcomes of all commands.
-/

namespace Base128

/-- The settings as they are told, spelled out. -/
theorem Settings.note_eq (settings : Settings) :
    settings.note =
      "config: overflow=" ++ (if settings.overflow = .wrap then "Wrap" else "Reject") ++
        ", max_len=" ++
        settings.maxLength.elim "None" (fun limit => "Some(" ++ limit.repr ++ ")") := by
  obtain ⟨overflow, maxLength⟩ := settings
  cases overflow <;> cases maxLength <;> rfl

namespace Command

variable {files : Files} {settings : Settings} {command : Command} {failure : Failure}

/-- The command fails, and `failure` is why. -/
inductive Fails (files : Files) (settings : Settings) : Command → Failure → Prop where
  /-- The arguments are no bytes, or their bytes do not decode. -/
  | undecoded {arguments : List String} {all : Bool} {failure : Failure}
      (shown : Readout.render settings all arguments = .error failure) :
      Fails files settings (.decode arguments all) failure
  /-- The file that the command is about cannot be read. -/
  | unreadable {command : Command} {path : String} {error : FileError}
      (about : command.path? = some path) (read : files path = .error error) :
      Fails files settings command (.unreadable path error)
  /-- The file cannot be listed. -/
  | uninspected {path : String} {skip : ℕ} {count : Option ℕ} {json : Bool} {bytes : Bytes}
      {failure : Failure} (read : files path = .ok bytes)
      (listed : Listing.collect settings bytes skip count = .error failure) :
      Fails files settings (.inspect path skip count json) (.uninspected path failure)
  /-- The file is not valid. -/
  | invalid {path : String} {bytes : Bytes} {finding : Validity.Finding}
      (read : files path = .ok bytes)
      (checked : Validity.check settings bytes = .error finding) :
      Fails files settings (.validate path) .invalid

/-- What comes of a command, if everything is to be told or not. -/
def outcome (files : Files) (settings : Settings) (verbose : Bool) (command : Command) :
    Outcome :=
  (⟨command, settings, verbose⟩ : Invocation).run files

/-! ## What a command does -/

/-- Only what the command fails with is said to be its failure. -/
theorem fails_of_failure_effect
    (h : (command.effect files settings false).failure = some failure) :
    command.Fails files settings failure := by
  cases command with
  | decode arguments all =>
    cases hrender : Readout.render settings all arguments with
    | ok text => simp [effect, decodeEffect, hrender] at h
    | error cause =>
      simp only [effect, decodeEffect, hrender, Option.some.injEq] at h
      exact h ▸ .undecoded hrender
  | inspect path skip count json =>
    cases hread : files path with
    | error error =>
      simp only [effect, inspectEffect, hread, Option.some.injEq] at h
      exact h ▸ .unreadable rfl hread
    | ok bytes =>
      cases hcollect : Listing.collect settings bytes skip count with
      | ok fields => simp [effect, inspectEffect, hread, hcollect] at h
      | error cause =>
        simp only [effect, inspectEffect, hread, hcollect, Option.some.injEq] at h
        exact h ▸ .uninspected hread hcollect
  | validate path =>
    cases hread : files path with
    | error error =>
      simp only [effect, validateEffect, hread, Option.some.injEq] at h
      exact h ▸ .unreadable rfl hread
    | ok bytes =>
      cases hcheck : Validity.check settings bytes with
      | ok totals => simp [effect, validateEffect, hread, hcheck] at h
      | error finding =>
        simp only [effect, validateEffect, hread, hcheck, Option.some.injEq] at h
        exact h ▸ .invalid hread hcheck

/-- What a failing command does: it says why, and shows nothing, unless it has checked a
file. -/
theorem effect_of_fails (h : command.Fails files settings failure) :
    (command.effect files settings false).failure = some failure ∧
      ((¬ ∃ path bytes, command = .validate path ∧ files path = .ok bytes) →
        (command.effect files settings false).stdout = "") := by
  cases h with
  | undecoded shown => simp [effect, decodeEffect, shown]
  | unreadable about read =>
    cases command with
    | decode arguments all => simp [path?] at about
    | inspect path skip count json =>
      obtain rfl := Option.some.inj about
      simp [effect, inspectEffect, read]
    | validate path =>
      obtain rfl := Option.some.inj about
      simp [effect, validateEffect, read]
  | uninspected read listed => simp [effect, inspectEffect, read, listed]
  | invalid read checked => simp [effect, validateEffect, read, checked]

/-- What a command tells on the way, if everything is to be told: which file a listing has
read. -/
def told (files : Files) : Command → List String
  | .inspect path skip _ _ =>
    match files path with
    | .error _ => []
    | .ok bytes =>
      ["read " ++ bytes.length.repr ++ " bytes from " ++ path ++ ", starting at offset " ++
        skip.repr]
  | _ => []

/-- **To tell more is all that a command does more.** -/
theorem effect_eq (files : Files) (settings : Settings) (verbose : Bool) (command : Command) :
    command.effect files settings verbose =
      { command.effect files settings false with
        notes := if verbose then command.told files else [] } := by
  cases command with
  | decode arguments all =>
    cases hrender : Readout.render settings all arguments <;>
      simp [effect, decodeEffect, told, hrender]
  | inspect path skip count json =>
    cases hread : files path with
    | error error => simp [effect, inspectEffect, told, hread]
    | ok bytes =>
      -- the file is noted in front of what can go wrong with the listing
      cases hcollect : Listing.collect settings bytes skip count <;>
        simp [effect, inspectEffect, told, readNote, Text.decimal, hread, hcollect]
  | validate path =>
    cases hread : files path with
    | error error => simp [effect, validateEffect, told, hread]
    | ok bytes =>
      cases hcheck : Validity.check settings bytes <;>
        simp [effect, validateEffect, told, hread, hcheck]

theorem notes_effect_quiet (files : Files) (settings : Settings) (command : Command) :
    (command.effect files settings false).notes = [] := by
  rw [effect_eq]
  rfl

theorem told_eq_nil
    (h : ∀ path skip count json bytes, command = .inspect path skip count json →
      files path ≠ .ok bytes) :
    command.told files = [] := by
  cases command with
  | inspect path skip count json =>
    cases hread : files path with
    | error error => simp [told, hread]
    | ok bytes => exact absurd hread (h path skip count json bytes rfl)
  | _ => rfl

/-! ## What comes of it -/

/-- What comes of a command that fails. -/
theorem outcome_of_fails (h : command.Fails files settings failure) :
    command.outcome files settings false =
      ⟨1, (command.effect files settings false).stdout, "error: " ++ failure.message ++ "\n"⟩ := by
  simp [outcome, Invocation.run, (effect_of_fails h).1, notes_effect_quiet, Text.lines]

/-- What comes of one that does not. -/
theorem outcome_of_not_fails (h : ∀ failure, ¬ command.Fails files settings failure) :
    command.outcome files settings false =
      ⟨0, (command.effect files settings false).stdout, ""⟩ := by
  have hnone : (command.effect files settings false).failure = none := by
    rw [Option.eq_none_iff_forall_not_mem]
    intro failure hmem
    exact h failure (fails_of_failure_effect hmem)
  simp [outcome, Invocation.run, hnone, notes_effect_quiet]

/-- **Telling more.** The settings, and then what the command tells, stand in front of the
second stream. -/
theorem outcome_verbose (files : Files) (settings : Settings) (command : Command) :
    command.outcome files settings true =
      { command.outcome files settings false with
        stderr := settings.note ++ "\n" ++ Text.lines (command.told files) ++
          (command.outcome files settings false).stderr } := by
  have hnotes := notes_effect_quiet files settings command
  simp only [outcome, Invocation.run, effect_eq files settings true, hnotes]
  cases (command.effect files settings false).failure <;>
    simp [Text.lines_cons, Text.lines_append, String.append_assoc]

/-- A readout is shown as a whole. -/
theorem outcome_of_render {arguments : List String} {all : Bool} {text : String}
    (hrender : Readout.render settings all arguments = .ok text) :
    (Command.decode arguments all).outcome files settings false = ⟨0, text, ""⟩ := by
  simp [outcome, Invocation.run, effect, decodeEffect, hrender]

/-- A listing is shown as a whole. -/
theorem outcome_of_collect {path : String} {skip : ℕ} {count : Option ℕ} {bytes : Bytes}
    {fields : List Field} (json : Bool) (hread : files path = .ok bytes)
    (hcollect : Listing.collect settings bytes skip count = .ok fields) :
    (Command.inspect path skip count json).outcome files settings false =
      ⟨0, if json then Listing.json fields ++ "\n" else Listing.text fields skip bytes.length,
        ""⟩ := by
  simp [outcome, Invocation.run, effect, inspectEffect, hread, hcollect]

/-- A valid file is reported on. -/
theorem outcome_of_check {path : String} {bytes : Bytes} {totals : Validity.Totals}
    (hread : files path = .ok bytes) (hcheck : Validity.check settings bytes = .ok totals) :
    (Command.validate path).outcome files settings false = ⟨0, totals.report, ""⟩ := by
  simp [outcome, Invocation.run, effect, validateEffect, hread, hcheck]

/-- Of an invalid file it is said what is wrong with it, and besides that it is not valid. -/
theorem outcome_of_check_error {path : String} {bytes : Bytes} {finding : Validity.Finding}
    (hread : files path = .ok bytes) (hcheck : Validity.check settings bytes = .error finding) :
    (Command.validate path).outcome files settings false =
      ⟨1, finding.line ++ "\n", "error: validation failed\n"⟩ := by
  have hfails : (Command.validate path).Fails files settings .invalid := .invalid hread hcheck
  rw [outcome_of_fails hfails]
  simp only [effect, validateEffect, hread, hcheck]
  rfl

/-! ## Values in front of a malformed one -/

namespace Fails

variable {bytes : Bytes} {fields : List Field} {fault : Fault}

/-- A value that is malformed makes a listing that comes to it fail, with the place behind
the values in front of it, however many there are. -/
theorem of_items {path : String} {skip : ℕ} {count : Option ℕ} (json : Bool)
    (read : files path = .ok bytes) (hskip : skip ≤ bytes.length)
    (hitems : items settings (bytes.drop skip) = fields.map .ok ++ [.error fault])
    (hcount : ∀ n, count = some n → fields.length < n) :
    Fails files settings (.inspect path skip count json) (.uninspected path
      (.malformed (Listing.pageEnd skip (fields.map (Field.moved skip))) fault)) := by
  have hall : Listing.limited count (items settings (bytes.drop skip)) =
      fields.map .ok ++ [.error fault] := by
    rw [hitems]
    cases count with
    | none => rfl
    | some n =>
      have hlt : fields.length < n := hcount n rfl
      exact List.take_of_length_le (by simp; omega)
  apply Fails.uninspected read
  rw [Listing.collect_eq_gather hskip, hall, Listing.gather_append]
  rfl

/-- A value that is malformed makes a table of all values fail, however many of them stand
in front of it. -/
theorem of_table {first : String} {others : List String}
    (hfirst : HexArgument.decode first = .ok bytes)
    (hothers : ∀ argument ∈ others, HexArgument.IsHex argument)
    (hitems : items settings bytes = fields.map .ok ++ [.error fault]) :
    Fails files settings (.decode (first :: others) true) (.undecodable fault) := by
  have hne : bytes ≠ [] := by
    rintro rfl
    simp at hitems
  apply Fails.undecoded
  rw [Readout.render_eq_of_decode hfirst hfirst hothers, render_all hfirst hne, hitems,
    Readout.table_append]
  rfl

end Fails

end Command

/-! ## Single lines -/

theorem Fault.newline_notMem_message (fault : Fault) : '\n' ∉ fault.message.toList := by
  unfold Fault.message
  cases fault with
  | valueTooLarge offset value width =>
    have hname : '\n' ∉ width.name.toList := by
      cases width <;> decide
    simp [Text.newline_notMem_decimal, hname]
  | _ => simp [Text.newline_notMem_decimal]

/-- What is said of an invalid file is one line. -/
theorem Validity.Finding.newline_notMem_line (finding : Finding) :
    '\n' ∉ finding.line.toList := by
  obtain ⟨start, fault⟩ := finding
  have hposition := Text.newline_notMem_position start
  have hmessage := fault.newline_notMem_message
  unfold line diagnostic
  cases fault with
  | incomplete offset consumed =>
    have hcounted : '\n' ∉ (Text.counted consumed "byte").toList :=
      Text.newline_notMem_counted _ (by decide)
    simp [hposition, hcounted]
  | overflow offset => simp [hposition, Text.newline_notMem_position]
  | tooLong offset limit => simp [hposition, Text.newline_notMem_decimal]
  | missingArgument given => simp [hmessage]
  | valueTooLarge offset value width => simp [hmessage]

namespace Command

/-- What comes of commands on `files`: of any command in two runs that differ in how much is
told, and of each kind of command where no more is told than a failure. -/
structure Streams (files : Files) (settings : Settings) : Prop where
  /-- To tell more changes neither the exit code nor the first stream. In front of the second
  one the settings are told, and then the file that a listing has read. -/
  verbose : ∀ command : Command,
    (command.outcome files settings true).exit =
      (command.outcome files settings false).exit ∧
    (command.outcome files settings true).stdout =
      (command.outcome files settings false).stdout ∧
    ∃ read : String,
      (command.outcome files settings true).stderr =
        "config: overflow=" ++ (if settings.overflow = .wrap then "Wrap" else "Reject") ++
          ", max_len=" ++
          settings.maxLength.elim "None" (fun limit => "Some(" ++ limit.repr ++ ")") ++ "\n" ++
          read ++ (command.outcome files settings false).stderr ∧
      (∀ path skip count json bytes, command = .inspect path skip count json →
        files path = .ok bytes →
        read = "read " ++ bytes.length.repr ++ " bytes from " ++ path ++
          ", starting at offset " ++ skip.repr ++ "\n") ∧
      ((∀ path skip count json bytes, command = .inspect path skip count json →
        files path ≠ .ok bytes) → read = "")
  /-- A command that succeeds tells nothing. One that fails tells why, from the outside in,
  and shows nothing, unless it has checked a file. -/
  quiet : ∀ command : Command,
    ((∀ failure, ¬ command.Fails files settings failure) ∧
      (command.outcome files settings false).exit = 0 ∧
      (command.outcome files settings false).stderr = "") ∨
    ∃ failure, command.Fails files settings failure ∧
      (command.outcome files settings false).exit = 1 ∧
      (command.outcome files settings false).stderr =
        "error: " ++ String.intercalate ": " failure.chain ++ "\n" ∧
      ((¬ ∃ path bytes, command = .validate path ∧ files path = .ok bytes) →
        (command.outcome files settings false).stdout = "")
  unreadable : ∀ (command : Command) path error, command.path? = some path →
    files path = .error error →
    command.outcome files settings false =
      ⟨1, "", "error: " ++ String.intercalate ": " ["cannot read " ++ path, error.message] ++
        "\n"⟩
  decodes : ∀ arguments all text, Readout.render settings all arguments = .ok text →
    (Command.decode arguments all).outcome files settings false = ⟨0, text, ""⟩
  /-- No row is shown in front of a malformed value, however many there are. -/
  undecoded : ∀ first others bytes (fields : List Field) fault,
    HexArgument.decode first = .ok bytes →
    (∀ argument ∈ others, HexArgument.IsHex argument) →
    items settings bytes = fields.map .ok ++ [.error fault] →
    (Command.decode (first :: others) true).outcome files settings false =
      ⟨1, "", "error: " ++ String.intercalate ": " ["cannot decode input", fault.message] ++
        "\n"⟩
  lists : ∀ path skip count json bytes fields, files path = .ok bytes →
    Listing.collect settings bytes skip count = .ok fields →
    (Command.inspect path skip count json).outcome files settings false =
      ⟨0, if json then Listing.json fields ++ "\n" else Listing.text fields skip bytes.length,
        ""⟩
  /-- Neither is one listed, as text or as JSON. -/
  unlisted : ∀ path skip count json bytes (fields : List Field) fault,
    files path = .ok bytes → skip ≤ bytes.length →
    items settings (bytes.drop skip) = fields.map .ok ++ [.error fault] →
    (∀ n, count = some n → fields.length < n) →
    (Command.inspect path skip count json).outcome files settings false =
      ⟨1, "", "error: " ++ String.intercalate ": " ["cannot inspect " ++ path,
        "malformed ULEB128 value at offset " ++
          Text.hexadecimal (Listing.pageEnd skip (fields.map (Field.moved skip))),
        fault.message] ++ "\n"⟩
  /-- A file that can be read is reported on exactly where it is valid, and else one line is
  shown. -/
  validates : ∀ path bytes, files path = .ok bytes →
    (((Command.validate path).outcome files settings false).exit = 0 ↔
      ∃ totals, Validity.check settings bytes = .ok totals) ∧
    (∀ totals, Validity.check settings bytes = .ok totals →
      (Command.validate path).outcome files settings false = ⟨0, totals.report, ""⟩) ∧
    ∀ finding, Validity.check settings bytes = .error finding →
      '\n' ∉ finding.line.toList ∧
      (Command.validate path).outcome files settings false =
        ⟨1, finding.line ++ "\n", "error: validation failed\n"⟩

/-- **What comes on which stream**, for all files, settings and commands. -/
theorem streams (files : Files) (settings : Settings) : Streams files settings := by
  constructor
  case verbose =>
    intro command
    rw [outcome_verbose]
    refine ⟨rfl, rfl, Text.lines (command.told files), ?_, ?_, ?_⟩
    · rw [Settings.note_eq]
    · rintro path skip count json bytes rfl hread
      simp only [told, hread, Text.lines_cons, Text.lines_nil, String.append_empty]
    · intro hother
      rw [told_eq_nil hother, Text.lines_nil]
  case quiet =>
    intro command
    by_cases hfails : ∃ failure, command.Fails files settings failure
    · obtain ⟨failure, hfailure⟩ := hfails
      rw [outcome_of_fails hfailure]
      exact Or.inr ⟨failure, hfailure, rfl, rfl, (effect_of_fails hfailure).2⟩
    · rw [not_exists] at hfails
      rw [outcome_of_not_fails hfails]
      exact Or.inl ⟨hfails, rfl, rfl⟩
  case unreadable =>
    intro command path error habout hread
    have hfails : command.Fails files settings (.unreadable path error) := .unreadable habout hread
    have hnone : ¬ ∃ path bytes, command = .validate path ∧ files path = .ok bytes := by
      rintro ⟨other, bytes, rfl, hother⟩
      obtain rfl := Option.some.inj habout
      rw [hread] at hother
      simp at hother
    rw [outcome_of_fails hfails, (effect_of_fails hfails).2 hnone]
    rfl
  case decodes =>
    intro arguments all text hrender
    exact outcome_of_render hrender
  case undecoded =>
    intro first others bytes fields fault hfirst hothers hitems
    have hfails : (Command.decode (first :: others) true).Fails files settings
        (.undecodable fault) := .of_table hfirst hothers hitems
    rw [outcome_of_fails hfails, (effect_of_fails hfails).2 (by simp)]
    rfl
  case lists =>
    intro path skip count json bytes fields hread hcollect
    exact outcome_of_collect json hread hcollect
  case unlisted =>
    intro path skip count json bytes fields fault hread hskip hitems hcount
    have hfails := Fails.of_items json hread hskip hitems hcount
    rw [outcome_of_fails hfails, (effect_of_fails hfails).2 (by simp)]
    rfl
  case validates =>
    intro path bytes hread
    cases hcheck : Validity.check settings bytes with
    | ok totals =>
      have hvalid := outcome_of_check hread hcheck
      refine ⟨by simp [hvalid], ?_, by simp⟩
      rintro _ ⟨⟩
      exact hvalid
    | error finding =>
      have hinvalid := outcome_of_check_error hread hcheck
      refine ⟨by simp [hinvalid], by simp, ?_⟩
      rintro _ ⟨⟩
      exact ⟨finding.newline_notMem_line, hinvalid⟩

/-- One file, and no other. -/
def onlyFile (name : String) (bytes : Bytes) : Files := fun path =>
  if path = name then .ok bytes else .error .notFound

/-- Two complete values and the front of a third one: none of them is listed or shown, and
the check says where the third one starts. -/
theorem streams_truncated :
    (Command.inspect "a.bin" 1 none true).outcome
        (onlyFile "a.bin" [0x05, 0x91, 0x42, 0x80]) ⟨.wrap, some 3⟩ true =
      ⟨1, "", "config: overflow=Wrap, max_len=Some(3)\n" ++
        "read 4 bytes from a.bin, starting at offset 1\n" ++
        "error: cannot inspect a.bin: malformed ULEB128 value at offset 0x3: " ++
        "ULEB128 sequence at offset 2 did not contain a terminator (1 bytes scanned)\n"⟩ ∧
    (Command.inspect "a.bin" 1 (some 1) false).outcome
        (onlyFile "a.bin" [0x05, 0x91, 0x42, 0x80]) ⟨.wrap, some 3⟩ false =
      ⟨0, "0x0001  len=2  value=8465 (0x2111)\n---\n1 value, 2 of 3 bytes decoded\n", ""⟩ ∧
    (Command.decode ["05 91 42 80", "ff"] true).outcome
        (onlyFile "a.bin" [0x05, 0x91, 0x42, 0x80]) ⟨.wrap, some 3⟩ false =
      ⟨1, "", "error: cannot decode input: " ++
        "ULEB128 sequence at offset 3 did not contain a terminator (1 bytes scanned)\n"⟩ ∧
    (Command.decode ["9142"] true).outcome
        (onlyFile "a.bin" [0x05, 0x91, 0x42, 0x80]) ⟨.wrap, some 3⟩ false =
      ⟨0, "0x0000  len=2  value=8465 (0x2111)\n", ""⟩ ∧
    (Command.validate "a.bin").outcome
        (onlyFile "a.bin" [0x05, 0x91, 0x42, 0x80]) ⟨.wrap, some 3⟩ false =
      ⟨1, "✗ Error: value at offset 0x0003 is truncated (1 byte without a terminator)\n",
        "error: validation failed\n"⟩ ∧
    (Command.validate "b.bin").outcome
        (onlyFile "a.bin" [0x05, 0x91, 0x42, 0x80]) ⟨.wrap, some 3⟩ false =
      ⟨1, "", "error: cannot read b.bin: No such file or directory (os error 2)\n"⟩ := by
  have hread : onlyFile "a.bin" [0x05, 0x91, 0x42, 0x80] "a.bin" =
      .ok [0x05, 0x91, 0x42, 0x80] := rfl
  have hother : onlyFile "a.bin" [0x05, 0x91, 0x42, 0x80] "b.bin" = .error .notFound := by
    decide +kernel
  have hbehind : items ⟨.wrap, some 3⟩ (([0x05, 0x91, 0x42, 0x80] : Bytes).drop 1) =
      [⟨0, 2, 0x2111⟩].map .ok ++ [.error (.incomplete 2 1)] := by
    decide +kernel
  have hpage : Listing.collect ⟨.wrap, some 3⟩ [0x05, 0x91, 0x42, 0x80] 1 (some 1) =
      .ok [⟨1, 2, 0x2111⟩] := by
    decide +kernel
  have hitems : items ⟨.wrap, some 3⟩ [0x05, 0x91, 0x42, 0x80] =
      [⟨0, 1, 5⟩, ⟨1, 2, 0x2111⟩].map .ok ++ [.error (.incomplete 3 1)] := by
    decide +kernel
  have htable : Readout.render ⟨.wrap, some 3⟩ true ["9142"] =
      .ok "0x0000  len=2  value=8465 (0x2111)\n" := by
    decide +kernel
  have hcheck : Validity.check ⟨.wrap, some 3⟩ [0x05, 0x91, 0x42, 0x80] =
      .error ⟨3, .incomplete 3 1⟩ := by
    decide +kernel
  have hextra : ∀ argument ∈ ["ff"], HexArgument.IsHex argument := by
    rw [List.forall_mem_singleton, HexArgument.isHex_iff]
    exact ⟨[0xff], by decide +kernel⟩
  have h := streams (onlyFile "a.bin" [0x05, 0x91, 0x42, 0x80]) ⟨.wrap, some 3⟩
  refine ⟨?_, ?_, ?_, ?_, ?_, ?_⟩
  · obtain ⟨hexit, hstdout, read, hstderr, htold, -⟩ :=
      h.verbose (.inspect "a.bin" 1 none true)
    rw [h.unlisted "a.bin" 1 none true _ _ _ hread (by decide) hbehind (by simp)]
      at hexit hstdout hstderr
    rw [htold "a.bin" 1 none true _ rfl hread] at hstderr
    refine Outcome.ext hexit hstdout (hstderr.trans ?_)
    decide +kernel
  · rw [h.lists "a.bin" 1 (some 1) false _ _ hread hpage]
    decide +kernel
  · rw [h.undecoded "05 91 42 80" ["ff"] _ _ _ (by decide +kernel) hextra hitems]
    decide +kernel
  · exact h.decodes _ _ _ htable
  · rw [((h.validates "a.bin" _ hread).2.2 _ hcheck).2]
    decide +kernel
  · rw [h.unreadable (.validate "b.bin") "b.bin" _ rfl hother]
    decide +kernel

end Command

end Base128

/-
# From one program to the other

What the program that writes scripts has written when it ends well are the
lines of a whole script. They come back from their bytes as they were, and the
program that checks scripts, given those bytes and the same document, finds
nothing to say.

Key definitions: `Generate.settingOf`.
Key theorems: `Stream.Runs.writeOnto_eq`, `Generate.exists_script_of_run`,
`Generate.status_write_of_short`, `Generate.pipeline`.
-/
import Mathlib.Data.List.TakeWhile
import UndoScript.CommandLine.Check
import UndoScript.Proofs.Audit.Agreement
import UndoScript.Proofs.Command.Faithful

namespace UndoScript

/-! ### Writing a stream -/

/-- **A stream is written** as far as its commands can be, and if they all can the writing ends as
the stream does. -/
theorem Stream.Runs.writeOnto_eq {σ : Type} [Source σ] {stream : Stream} {s s' : Session σ}
    {cs : List Command} {fault : Option Fault} (h : Runs stream s cs fault s')
    (written : List Text) : (stream.writeOnto written s).1 =
      (written.reverse ++ (cs.takeWhile fun c => decide c.Renders).map Command.text,
        if ∀ c ∈ cs, c.Renders then fault else some .numberTooLarge) := by
  induction h generalizing written with
  | @ended stream s s' hend =>
    unfold writeOnto
    split
    · next hnext => cases hend.symm.trans hnext
    · simp
    · next hnext => cases hend.symm.trans hnext
  | @failed stream s s' f hfail =>
    unfold writeOnto
    split
    · next hnext =>
      cases hfail.symm.trans hnext
      simp
    · next hnext => cases hfail.symm.trans hnext
    · next hnext => cases hfail.symm.trans hnext
  | @taken stream after s s₁ s' c cs fault htaken _ ih =>
    unfold writeOnto
    split
    · next hnext => cases htaken.symm.trans hnext
    · next hnext => cases htaken.symm.trans hnext
    · next hnext =>
      cases htaken.symm.trans hnext
      unfold Command.render
      by_cases hc : c.Renders
      · rw [if_pos hc]
        dsimp only
        rw [ih]
        simp [hc]
      · rw [if_neg hc]
        simp [hc]

/-- A stream that fails with its first command is not written. -/
theorem Stream.writeOnto_of_next_error {σ : Type} [Source σ] {stream after : Stream}
    {s : Session σ} {f : Fault} (h : (stream.next s).1 = (.error f, after)) (written : List Text) :
    (stream.writeOnto written s).1 = (written.reverse, some f) := by
  unfold writeOnto
  split
  · next hnext =>
    rw [hnext] at h
    cases h
    rfl
  · next hnext =>
    rw [hnext] at h
    cases h
  · next hnext =>
    rw [hnext] at h
    cases h

/-! ### What a script is made of comes back -/

namespace Setting

variable {s : Setting} {n : Nat} {opening closing : List Command} {ts : List Step}

theorem faithful_savedAs {ending : String} (htarget : Utf8.Faithful s.target)
    (hstart : Utf8.StartsInAscii (Text.ofString ending)) : Utf8.Faithful (s.savedAs ending) :=
  (Utf8.faithful_of_chars Utf8.exists_char_of_mem_ofString).append hstart htarget

theorem Admits.faithful {bound : Nat} {bytes : List UInt8} {p : Phrase}
    (h : s.Admits bound p) (hdocument : s.document = .ofText (Utf8.decode bytes)) :
    p.2.Faithful := by
  cases ha : p.2 with
  | absent => trivial
  | number n => trivial
  | bare t => exact Utf8.faithful_of_chars (Utf8.exists_char_of_isInk (h.bare t ha))
  | quoted t =>
    obtain ⟨line, hline, hpart⟩ := Document.holds_iff.1 (h.quoted t ha).2
    rw [hdocument] at hline
    exact Document.faithful_of_isInfix hline hpart

/-- A script's texts come back from their bytes, if the target and the document were read. -/
theorem ScriptParts.faithful {bytes : List UInt8} (h : s.ScriptParts n opening ts closing)
    (hdocument : s.document = .ofText (Utf8.decode bytes)) (htarget : Utf8.Faithful s.target) :
    ∀ c ∈ opening ++ ((ts.map Step.commands).flatten ++ closing), c.phrase.2.Faithful := by
  apply h.forall_phrases (P := fun p => p.2.Faithful)
  · exact fun _ => trivial
  · exact htarget
  · trivial
  · exact fun _ _ _ => trivial
  · exact fun _ hp => hp.faithful hdocument
  · intro ending hending
    have hascii : ∀ ending ∈ [".test", ".undone", ".redone"],
        ∃ rest, Text.ofString ending = .char '.' :: rest := by
      simp [Text.ofString]
    obtain ⟨rest, hrest⟩ := hascii ending hending
    apply faithful_savedAs htarget
    rw [hrest]
    exact Utf8.startsInAscii_cons (by decide) rest
  · exact fun _ => trivial

end Setting

/-! ### The program that writes scripts -/

namespace Generate

variable {σ : Type} [Source σ] {r : Request} {read : Reader} {source : σ}

/-- The setting of a script for the document in a file. -/
def settingOf (bytes : List UInt8) (file : Text) (options : Options) : Setting :=
  ⟨.ofText (Utf8.decode bytes), file, options⟩

theorem status_failed_ne {journal : List Entry} {f : Fault} :
    (failed journal f).status ≠ .ok 0 := by
  unfold failed
  split <;> simp

/-- A run that ends well has read the document and written a script for it. -/
theorem exists_of_run (h : (run r read source).status = .ok 0) :
    ∃ options bytes n journal, r.options = .ok options ∧
      StepCount.ofLiteral (.text r.steps) = .ok n ∧ read r.file = .ok bytes ∧
      run r read source = write journal (settingOf bytes r.file options) n source := by
  revert h
  unfold run Document.load
  cases r.options with
  | error f => exact fun h => absurd h status_failed_ne
  | ok options =>
    cases StepCount.ofLiteral (.text r.steps) with
    | error f => exact fun h => absurd h status_failed_ne
    | ok n =>
      cases read r.file with
      | error f => cases f <;> exact fun h => absurd h status_failed_ne
      | ok bytes => exact fun _ => ⟨options, bytes, n, _, rfl, rfl, rfl, rfl⟩

section write

variable {journal : List Entry} {setting : Setting} {n : Nat}

theorem write_of_error {f : Fault} (h : setting.stepCount (.whole n) = .error f) :
    write journal setting n source = failed journal f := by
  unfold write
  rw [h]

/-- What is written, well or not, are the lines of the stream, and the run ends as the writing. -/
theorem write_of_ok (journal : List Entry) (source : σ) {k : Nat}
    (h : setting.stepCount (.whole n) = .ok k) :
    (write journal setting n source).written =
        Text.ofLines ((Stream.ready n).writeAll (Session.ofSetting setting source)).1.1 ∧
      (write journal setting n source).status =
        ((Stream.ready n).writeAll (Session.ofSetting setting source)).1.2.elim (.ok 0) .error := by
  obtain rfl := Setting.eq_of_stepCount_whole h
  unfold write
  rw [h]
  dsimp only
  rcases (Stream.ready n).writeAll (Session.ofSetting setting source) with ⟨⟨lines, _ | f⟩, s'⟩ <;>
    exact ⟨rfl, rfl⟩

/-- A script is written well if there is text for its steps and all of its stream is written. -/
theorem status_write_iff : (write journal setting n source).status = .ok 0 ↔
    (n = 0 ∨ setting.document.hasContent = true) ∧
      ((Stream.ready n).writeAll (Session.ofSetting setting source)).1.2 = none := by
  cases hcount : setting.stepCount (.whole n) with
  | error f =>
    rw [write_of_error hcount]
    refine iff_of_false status_failed_ne fun h => ?_
    rw [Setting.stepCount_eq_ok_iff.2 ⟨.whole n, h.1⟩] at hcount
    cases hcount
  | ok k =>
    have hn := (Setting.stepCount_eq_ok_iff.1 hcount).2
    obtain rfl := Setting.eq_of_stepCount_whole hcount
    rw [(write_of_ok journal source hcount).2, and_iff_right hn]
    cases ((Stream.ready n).writeAll (Session.ofSetting setting source)).1.2 <;> simp

end write

/-- **A script that is written well is a whole script,** the one that the stream gives out. -/
theorem exists_script_of_write {journal : List Entry} {setting : Setting} {n : Nat}
    (hd : setting.document.Unbroken) (h : (write journal setting n source).status = .ok 0) :
    ∃ opening ts closing, setting.ScriptParts n opening ts closing ∧
      (Stream.ready n).Gives (Session.ofSetting setting source)
        (opening ++ ((ts.map Step.commands).flatten ++ closing)) none ∧
      (∀ c ∈ opening ++ ((ts.map Step.commands).flatten ++ closing), c.Renders) ∧
      (write journal setting n source).written = Text.ofLines
        ((opening ++ ((ts.map Step.commands).flatten ++ closing)).map Command.text) := by
  obtain ⟨hn, hnone⟩ := status_write_iff.1 h
  have ht : Glyph.newline ∉ setting.target := by
    intro hmem
    have hnext := Stream.next_ready_of_newline_mem (n := n)
      (s := Session.ofSetting setting source) hmem
    unfold Stream.writeAll at hnone
    rw [Stream.writeOnto_of_next_error hnext] at hnone
    cases hnone
  obtain ⟨opening, ts, closing, s₁, s₂, hstart, hgroups, hclosing, hparts⟩ :=
    Session.exists_parts (s := Session.ofSetting setting source) hd ht hn
  have hwrite := (Stream.runs_ready hstart hgroups hclosing).writeOnto_eq []
  have hrenders : ∀ c ∈ opening ++ ((ts.map Step.commands).flatten ++ closing), c.Renders := by
    unfold Stream.writeAll at hnone
    rw [hwrite] at hnone
    by_contra hnot
    rw [if_neg hnot] at hnone
    cases hnone
  have hgives := Stream.gives_ready hstart hgroups hclosing
  have hwell : Fault.of (s₂.summary n) = none := by
    unfold Stream.writeAll at hnone
    rwa [hwrite, if_pos hrenders] at hnone
  rw [hwell] at hgives
  refine ⟨opening, ts, closing, hparts, hgives, hrenders, ?_⟩
  have hcount : setting.stepCount (.whole n) = .ok n :=
    Setting.stepCount_eq_ok_iff.2 ⟨.whole n, hn⟩
  rw [(write_of_ok journal source hcount).1]
  unfold Stream.writeAll
  rw [hwrite, List.takeWhile_eq_self_iff.2 (by simpa using hrenders)]
  rfl

/-- So is all that a run writes that ends well, and it is for the document that was read. -/
theorem exists_script_of_run (h : (run r read source).status = .ok 0) :
    ∃ options bytes n opening ts closing, r.options = .ok options ∧
      StepCount.ofLiteral (.text r.steps) = .ok n ∧ read r.file = .ok bytes ∧
      (settingOf bytes r.file options).ScriptParts n opening ts closing ∧
      (Stream.ready n).Gives (Session.ofSetting (settingOf bytes r.file options) source)
        (opening ++ ((ts.map Step.commands).flatten ++ closing)) none ∧
      (∀ c ∈ opening ++ ((ts.map Step.commands).flatten ++ closing), c.Renders) ∧
      (run r read source).written = Text.ofLines
        ((opening ++ ((ts.map Step.commands).flatten ++ closing)).map Command.text) := by
  obtain ⟨options, bytes, n, journal, hoptions, hn, hread, hrun⟩ := exists_of_run h
  rw [hrun] at h ⊢
  have hd : (settingOf bytes r.file options).document.Unbroken := Document.unbroken_ofText _
  obtain ⟨opening, ts, closing, hparts, hgives, hrenders, hwritten⟩ := exists_script_of_write hd h
  exact ⟨options, bytes, n, opening, ts, closing, hoptions, hn, hread, hparts, hgives, hrenders,
    hwritten⟩

/-- A script with short numbers is written well, if the target is on one line. -/
theorem status_write_of_short {journal : List Entry} {setting : Setting} {n : Nat}
    (hd : setting.document.Unbroken) (ht : Glyph.newline ∉ setting.target)
    (hn : n = 0 ∨ setting.document.hasContent = true) (hshort : setting.Short n) :
    (write journal setting n source).status = .ok 0 := by
  obtain ⟨opening, ts, closing, s₁, s₂, hstart, hgroups, hclosing, hparts⟩ :=
    Session.exists_parts (s := Session.ofSetting setting source) hd ht hn
  have hwrite := (Stream.runs_ready hstart hgroups hclosing).writeOnto_eq []
  have hrenders : ∀ c ∈ opening ++ ((ts.map Step.commands).flatten ++ closing), c.Renders :=
    fun c hc => (hparts.legible hshort c hc).2
  refine status_write_iff.2 ⟨hn, ?_⟩
  unfold Stream.writeAll
  rw [hwrite, if_pos hrenders, Session.of_summary_eq_of_start hstart hgroups,
    Session.excess_of_lt hshort.steps]

end Generate

/-! ### The program that checks scripts -/

/-- A script that is read back from its bytes has nothing said about it. -/
theorem Check.run_eq {setting : Setting} {n : Nat} {opening closing : List Command}
    {ts : List Step} {bytes : List UInt8} {written : Text} {c : Request} {read : Reader}
    (hparts : setting.ScriptParts n opening ts closing)
    (hlegible : ∀ c ∈ opening ++ ((ts.map Step.commands).flatten ++ closing), c.Legible)
    (hwritten : written = Text.ofLines
      ((opening ++ ((ts.map Step.commands).flatten ++ closing)).map Command.text))
    (hfaithful : Utf8.Faithful written)
    (hdocument : setting.document = .ofText (Utf8.decode bytes))
    (htarget : setting.target = c.document) (hread : read c.document = .ok bytes)
    (hscript : read c.script = .ok (Utf8.encode written)) :
    (run c read).status = .ok 0 ∧ (run c read).written = [] := by
  have hcheck : Audit.check written (.ofText (Utf8.decode bytes)) (some c.document) = .ok [] := by
    rw [← hdocument, ← htarget]
    exact hparts.check_eq (hwritten ▸ Script.parse_ofLines hlegible) (.inr rfl)
  unfold run Document.load
  rw [hread]
  dsimp only
  rw [hscript]
  dsimp only
  rw [hfaithful, hcheck]
  exact ⟨rfl, rfl⟩

/-! ### One program after the other -/

namespace Generate

variable {σ : Type} [Source σ]

/-- A command line that asks for a script runs with what its directory holds, after the journal's
file was opened. -/
theorem inTree_eq_run {arguments : List Text} {r : Request} {files : FileTree}
    {seedSource : Option Int → σ} (hr : request arguments = .ok r)
    (h : (inTree arguments files seedSource).status = .ok 0) :
    ∃ opened : FileTree, (r.log = none → opened = files) ∧
      (∀ log, r.log = some log → files.write log [] = .ok opened) ∧
      (run r opened.read (seedSource r.seed)).status = .ok 0 ∧
      (inTree arguments files seedSource).written =
        (run r opened.read (seedSource r.seed)).written := by
  unfold inTree at h ⊢
  rw [hr] at h ⊢
  dsimp only at h ⊢
  cases hlog : r.log with
  | none =>
    rw [hlog] at h
    exact ⟨files, fun _ => rfl, nofun, h, rfl⟩
  | some log =>
    rw [hlog] at h
    dsimp only at h ⊢
    cases hopen : files.write log [] with
    | error f =>
      rw [hopen] at h
      cases h
    | ok opened =>
      rw [hopen] at h
      refine ⟨opened, nofun, ?_, h, rfl⟩
      rintro _ ⟨⟩
      exact hopen

/-- **The bytes of a script pass the check.** If a run that writes a script ends well, for a file
whose name was read from bytes, then what it has written are the lines of a whole script for the
bytes that it read from the file, the one that its source of chance makes a stream give out, and
they come back from their bytes; and a run that checks scripts, which reads the script's bytes and
those of the document under the same name, writes nothing and ends well. -/
theorem pipeline {r : Request} {read : Reader} {source : σ} {path : List UInt8}
    (hfile : r.file = Utf8.decode path) (hstatus : (run r read source).status = .ok 0) :
    ∃ bytes, read r.file = .ok bytes ∧
      (∃ options n cs, r.options = .ok options ∧ StepCount.ofLiteral (.text r.steps) = .ok n ∧
        (settingOf bytes r.file options).IsScript n cs ∧
        (Stream.ready n).Gives (.ofSetting (settingOf bytes r.file options) source) cs none ∧
        (run r read source).written = Text.ofLines (cs.map Command.text)) ∧
      Utf8.decode (Utf8.encode (run r read source).written) = (run r read source).written ∧
      ∀ (c : Check.Request) (later : Reader), c.document = r.file → later r.file = .ok bytes →
        later c.script = .ok (Utf8.encode (run r read source).written) →
        (Check.run c later).status = .ok 0 ∧ (Check.run c later).written = [] := by
  obtain ⟨options, bytes, n, opening, ts, closing, hoptions, hn, hread, hparts, hgives, hrenders,
    hlines⟩ := exists_script_of_run hstatus
  have htarget : Utf8.Faithful r.file := hfile ▸ Utf8.faithful_decode path
  have htexts := hparts.faithful rfl htarget
  have hlegible : ∀ c ∈ opening ++ ((ts.map Step.commands).flatten ++ closing), c.Legible :=
    fun c hc => ⟨hparts.readsBack c hc, hrenders c hc⟩
  have hfaithful : Utf8.Faithful (run r read source).written := by
    rw [hlines]
    apply Utf8.faithful_ofLines
    intro l hl
    obtain ⟨c, hc, rfl⟩ := List.mem_map.1 hl
    exact Command.faithful_text (htexts c hc)
  refine ⟨bytes, hread, ⟨options, n, _, hoptions, hn, ⟨opening, ts, closing, hparts, rfl⟩, hgives,
    hlines⟩, hfaithful, fun c later hdocument hsame hscript => ?_⟩
  exact Check.run_eq hparts hlegible hlines hfaithful rfl hdocument.symm (hdocument ▸ hsame) hscript

/-- Five steps for a file with a character cut short and a lone byte, in one directory, written and
checked in another. -/
theorem pipeline_of_ill_formed_bytes :
    let bytes : List UInt8 := [0x63, 0xC3, 0xA9, 0x20, 0xE2, 0x82, 0x0A, 0xFF, 0x41, 0x0A]
    let document : List FileName := [Utf8.encode "tmp", Utf8.encode "doc"]
    ∃ o : Ending, inTree ["5", "/tmp/doc"] ⟨[], [(document, bytes)]⟩ (fun _ => (⟨[0, 99, 2, 0,
        40, 2, 0, 1, 1, 0, 1, 0, 0, 30, 0, 0, 30, 0, 1, 30, 0, 0], []⟩ : Tape)) = o ∧
      o.status = .ok 0 ∧
      (∃ cs : List Command, o.written = Text.ofLines (cs.map Command.text) ∧
        (cs.take 10).map Command.phrase = [(.openFile, .quoted "/tmp/doc"), (.turbo, .number 10000),
          (.autoMatchBracket, .number 1), (.utf8, .number 0),
          (.insertString, .quoted [.char 'c', .char 'é', .char ' ', .byte 98, .byte 2]),
          (.find, .quoted [.char 'é', .char ' ']), (.replaceAll, .quoted [.byte 127]),
          (.mark, .absent), (.cut, .absent), (.paste, .absent)]) ∧
      Utf8.decode (Utf8.encode o.written) = o.written ∧
      (Check.inTree ["macro", "/tmp/doc"] ⟨[Utf8.encode "home"], [(document, bytes),
        ([Utf8.encode "home", Utf8.encode "macro"], Utf8.encode o.written)]⟩).status = .ok 0 := by
  intro bytes document
  have hdecode : Utf8.decode bytes = [.char 'c', .char 'é', .char ' ', .byte 98, .byte 2, .newline,
      .byte 127, .char 'A', .newline] := by decide +kernel
  have hshort : Setting.Short (settingOf bytes "/tmp/doc" .standard) 5 := by
    unfold settingOf
    rw [hdecode]
    exact .of_lt (by decide) (by decide) (by decide) (by decide)
  have hcontent : (Document.ofText (Utf8.decode bytes)).hasContent = true := by
    rw [hdecode]
    decide
  have hstatus : (inTree ["5", "/tmp/doc"] ⟨[], [(document, bytes)]⟩ (fun _ => (⟨[0, 99, 2, 0,
      40, 2, 0, 1, 1, 0, 1, 0, 0, 30, 0, 0, 30, 0, 1, 30, 0, 0], []⟩ : Tape))).status = .ok 0 :=
    status_write_of_short (Document.unbroken_ofText _) (by decide) (.inr hcontent) hshort
  obtain ⟨opened, hopened, -, hrun, hwritten⟩ := inTree_eq_run rfl hstatus
  obtain rfl := hopened rfl
  obtain ⟨read, hread, ⟨options, n, cs, hoptions, hn, -, hgives, hlines⟩, hfaithful, hcheck⟩ :=
    pipeline (Utf8.faithful_of_chars Utf8.exists_char_of_mem_ofString).symm hrun
  obtain rfl : bytes = read := Except.ok.inj hread
  obtain rfl : Options.standard = options := Except.ok.inj hoptions
  obtain rfl : 5 = n := Except.ok.inj hn
  refine ⟨_, rfl, hstatus, ⟨cs, hwritten.trans hlines, hgives.phrases_eq ?_⟩, ?_, ?_⟩
  · unfold settingOf
    rw [hdecode]
    rfl
  · rw [hwritten]
    exact hfaithful
  · rw [hwritten]
    exact (hcheck ⟨"macro", "/tmp/doc", false⟩ _ rfl rfl rfl).1

end Generate
end UndoScript

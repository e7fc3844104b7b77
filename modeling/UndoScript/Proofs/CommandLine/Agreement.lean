/-
# The program does what the library does

The program that writes scripts and the library's script for a file go the
same way by different means: the one writes as it takes from a stream, the
other makes all lines first. What the library returns the program has written,
what the library refuses the program reports and has written nothing, and any
other failure it lets through. Which refusal it is depends on the first thing
that is wrong: the options, the step count, the file, the document.

Key definitions: `Outcome.Reports`, `Generate.Request.script`,
`Generate.Request.Refused`.
Key theorems: `Generate.reports_run`, `Generate.refused_iff`,
`Generate.program_agrees`.
-/
import UndoScript.Proofs.CommandLine.Numbers
import UndoScript.Proofs.CommandLine.Pipeline
import UndoScript.Session.Generate

namespace UndoScript

/-- What a run came to tells what came of a script: its lines, each with a line feed; or a refusal,
which is the last entry of the journal and the only error there; or another failure. -/
inductive Outcome.Reports (o : Outcome) : Except Fault (List Text) → Prop
  | written {lines : List Text} : o.status = .ok 0 → o.written = Text.ofLines lines →
    Reports o (.ok lines)
  | refused {f : Fault} {notes : List Text} : f.isRefusal = true → o.status = .ok 1 →
    o.written = [] → o.journal = notes.map .info ++ [.error f.message] → Reports o (.error f)
  | raised {f : Fault} : f.isRefusal = false → o.status = .error f → Reports o (.error f)

/-- **A stream is written as the script is made,** or both fail alike; and if the numbers are short,
a stream that fails has written nothing. -/
theorem Stream.writeAll_or_script {σ : Type} [Source σ] {s : Session σ} {value : Literal} {n : Nat}
    (hd : s.setting.document.Unbroken) (hvalue : s.setting.stepCount value = .ok n) :
    (∃ lines, ((ready n).writeAll s).1 = (lines, none) ∧
      ((Session.script value).run s).1 = .ok lines) ∨
    ∃ lines f, ((ready n).writeAll s).1 = (lines, some f) ∧
      ((Session.script value).run s).1 = .error f ∧ f.isRefusal = false ∧
      (s.setting.Short n → lines = []) := by
  unfold writeAll
  by_cases ht : Glyph.newline ∈ s.setting.target
  · have hnext := next_ready_of_newline_mem (n := n) ht
    exact .inr ⟨_, _, writeOnto_of_next_error hnext [],
      Session.run_script_of_newline_mem hvalue ht, rfl, fun _ => rfl⟩
  · have hn := (Setting.stepCount_eq_ok_iff.1 hvalue).2
    obtain ⟨opening, ts, closing, s₁, s₂, hstart, hgroups, hclosing, hparts⟩ :=
      Session.exists_parts hd ht hn
    have hwrite := (runs_ready hstart hgroups hclosing).writeOnto_eq []
    rw [Session.of_summary_eq_of_start hstart hgroups] at hwrite
    by_cases hrenders : ∀ c ∈ opening ++ ((ts.map Step.commands).flatten ++ closing), c.Renders
    · have hscript := Session.run_script hvalue hstart hgroups hclosing hrenders
      rw [if_pos hrenders, List.takeWhile_eq_self_iff.2 (by simpa using hrenders)] at hwrite
      by_cases hfew : n < 10 ^ Numeral.limit
      · rw [Session.excess_of_lt hfew] at hwrite hscript
        exact .inl ⟨_, hwrite, congrArg Prod.fst hscript⟩
      · rw [Session.excess_of_not_lt hfew] at hwrite hscript
        exact .inr ⟨_, _, hwrite, congrArg Prod.fst hscript, rfl,
          fun hshort => absurd hshort.steps hfew⟩
    · rw [if_neg hrenders] at hwrite
      refine .inr ⟨_, _, hwrite,
        Session.run_script_error hvalue hstart hgroups hclosing hrenders, rfl, fun hshort => ?_⟩
      exact absurd (fun c hc => (hparts.legible hshort c hc).2) hrenders

theorem Outcome.Reports.of_ok {o : Outcome} {lines : List Text} (h : o.Reports (.ok lines)) :
    o.status = .ok 0 ∧ o.written = Text.ofLines lines := by
  cases h with
  | written hstatus hwritten => exact ⟨hstatus, hwritten⟩

namespace Generate

variable {σ : Type} [Source σ]

/-- What the library makes of a request. -/
def Request.script (r : Request) (read : Reader) (source : σ) : Except Fault (List Text) := do
  let options ← r.options
  Session.scriptFor read (.text r.steps) r.file options source

/-- Why a request is refused: the first thing that is wrong with it. The way to read files may
refuse for itself. -/
inductive Request.Refused (r : Request) (read : Reader) : Fault → Prop
  | turbo : r.turbo ≤ 0 → Refused r read (.turboNotPositive r.turbo)
  | steps {f : Fault} : 0 < r.turbo → StepCount.Refuses (.text r.steps) f → f.isRefusal = true →
    Refused r read f
  | file {n : Nat} {path : Text} {why : FileFailure} : 0 < r.turbo →
    StepCount.Accepts (.text r.steps) n → read r.file = .error (.fileUnavailable path why) →
    Refused r read (.documentUnavailable r.file why.reason)
  | reader {n : Nat} {f : Fault} : 0 < r.turbo → StepCount.Accepts (.text r.steps) n →
    read r.file = .error f → f.isRefusal = true → Refused r read f
  | empty {n : Nat} {bytes : List UInt8} : 0 < r.turbo → StepCount.Accepts (.text r.steps) n →
    0 < n → read r.file = .ok bytes →
    (∀ line ∈ (Utf8.decode bytes).lines, line.content = []) → Refused r read .documentEmpty

variable {r : Request} {read : Reader} {source : σ} {setting : Setting} {n : Nat}

theorem reports_failed (notes : List Text) (f : Fault) :
    (failed (notes.map .info) f).Reports (.error f) := by
  unfold failed
  cases hf : f.isRefusal with
  | true => exact .refused hf rfl rfl rfl
  | false => exact .raised hf rfl

/-- **What is written command by command is what is made at once,** or both fail alike. -/
theorem reports_write (notes : List Text) (hd : setting.document.Unbroken) :
    (write (notes.map .info) setting n source).Reports
      ((Session.script (.whole n)).run (Session.ofSetting setting source)).1 := by
  cases hcount : setting.stepCount (.whole n) with
  | error f =>
    rw [write_of_error hcount, Session.run_script_of_stepCount_error (s := Session.ofSetting setting source) hcount]
    exact reports_failed notes f
  | ok k =>
    obtain rfl := Setting.eq_of_stepCount_whole hcount
    obtain ⟨hwritten, hstatus⟩ := write_of_ok (notes.map .info) source hcount
    obtain ⟨lines, hwrite, hscript⟩ | ⟨lines, f, hwrite, hscript, hf, -⟩ :=
      Stream.writeAll_or_script (s := Session.ofSetting setting source) hd hcount
    · rw [hwrite] at hwritten hstatus
      rw [hscript]
      exact .written hstatus hwritten
    · rw [hwrite] at hstatus
      rw [hscript]
      exact .raised hf hstatus

/-- What the library goes through, one after the other. -/
theorem Request.script_eq (r : Request) (read : Reader) (source : σ) : r.script read source =
    match r.options with
    | .error f => .error f
    | .ok options => match StepCount.ofLiteral (.text r.steps) with
      | .error f => .error f
      | .ok n => match Document.load read r.file with
        | .error f => .error f
        | .ok (document, _) => ((Session.script (.whole n)).run
          (Session.ofSetting ⟨document, r.file, options⟩ source)).1 := by
  unfold Request.script Session.scriptFor
  cases r.options with
  | error f => rfl
  | ok options =>
    cases StepCount.ofLiteral (.text r.steps) with
    | error f => rfl
    | ok n => cases Document.load read r.file <;> rfl

/-- **A run reports what the library makes of the request.** -/
theorem reports_run (r : Request) (read : Reader) (source : σ) :
    (run r read source).Reports (r.script read source) := by
  rw [Request.script_eq]
  unfold run
  cases r.options with
  | error f => exact reports_failed [] f
  | ok options =>
    cases StepCount.ofLiteral (.text r.steps) with
    | error f => exact reports_failed [] f
    | ok n =>
      cases hload : Document.load read r.file with
      | error f => exact reports_failed [] f
      | ok loaded =>
        have hd : (Setting.mk loaded.1 r.file options).document.Unbroken :=
          Document.unbroken_of_load hload
        exact reports_write [loadedNote r.file loaded.2 loaded.1] hd

/-! ### Nothing is written before a failure -/

theorem written_failed (journal : List Entry) (f : Fault) : (failed journal f).written = [] := by
  unfold failed
  split <;> rfl

theorem written_write_eq_nil {journal : List Entry} {f : Fault} (hd : setting.document.Unbroken)
    (hshort : setting.Short n)
    (h : ((Session.script (.whole n)).run (Session.ofSetting setting source)).1 = .error f) :
    (write journal setting n source).written = [] := by
  cases hcount : setting.stepCount (.whole n) with
  | error f =>
    rw [write_of_error hcount]
    exact written_failed journal f
  | ok k =>
    obtain rfl := Setting.eq_of_stepCount_whole hcount
    obtain ⟨lines, -, hscript⟩ | ⟨lines, g, hwrite, -, -, hnil⟩ :=
      Stream.writeAll_or_script (s := Session.ofSetting setting source) hd hcount
    · cases hscript.symm.trans h
    · rw [(write_of_ok journal source hcount).1, hwrite, hnil hshort]
      rfl

/-! ### Options -/

/-- A value of TURBO that can be written is refused exactly if it is not positive. -/
theorem options_eq_error_iff {f : Fault} (hturbo : Numeral.Writable r.turbo) :
    r.options = .error f ↔ r.turbo ≤ 0 ∧ f = .turboNotPositive r.turbo := by
  unfold Request.options Options.checked
  by_cases hpos : 0 < r.turbo
  · rw [dif_pos hpos, dif_pos Options.standard.undoDepth_pos]
    exact iff_of_false nofun fun h => absurd hpos (Int.not_lt.2 h.1)
  · have hwords : (Fault.turboNotPositive r.turbo).inWords = _ := Fault.inWords_of_renders hturbo
    rw [dif_neg hpos, hwords, Except.error.injEq, eq_comm]
    exact ⟨fun h => ⟨Int.not_lt.1 hpos, h⟩, And.right⟩

theorem options_eq_ok {options : Options} (h : r.options = .ok options) :
    0 < r.turbo ∧ options.turbo = r.turbo ∧ options.undoDepth = Options.standard.undoDepth := by
  unfold Request.options Options.checked at h
  split at h
  · next hpos =>
    split at h
    · cases h
      exact ⟨hpos, rfl, rfl⟩
    · cases h
  · cases h

/-- The numbers of a script that is asked for are short, if the document has not too many lines. -/
theorem short_of_request {options : Options} {bytes : List UInt8}
    (hturbo : Numeral.Writable r.turbo) (hoptions : r.options = .ok options)
    (hn : StepCount.ofLiteral (.text r.steps) = .ok n)
    (hlines : (Utf8.decode bytes).lines.length < 10 ^ Numeral.limit) :
    (settingOf bytes r.file options).Short n := by
  obtain ⟨hpos, hturbo', hdepth⟩ := options_eq_ok hoptions
  obtain ⟨-, hlength, rfl⟩ := StepCount.accepts_text_iff.1 (StepCount.ofLiteral_eq_ok_iff.1 hn)
  obtain ⟨k, hk⟩ := Int.eq_ofNat_of_zero_le hpos.le
  rw [Numeral.writable_iff, hk, Int.natAbs_natCast] at hturbo
  refine ⟨Numeral.value_lt hlength, hlines, ?_, ?_⟩
  · show options.turbo < 10 ^ Numeral.limit
    rw [hturbo', hk]
    exact_mod_cast hturbo
  · show options.undoDepth < 10 ^ Numeral.limit
    rw [hdepth]
    exact Numeral.int_lt_limit (by decide)

/-- **A run that fails has written nothing,** if the document has not too many lines. -/
theorem written_run_eq_nil {f : Fault} (hturbo : Numeral.Writable r.turbo)
    (hlines : ∀ bytes, read r.file = .ok bytes →
      (Utf8.decode bytes).lines.length < 10 ^ Numeral.limit)
    (h : r.script read source = .error f) : (run r read source).written = [] := by
  rw [Request.script_eq] at h
  unfold run
  cases hoptions : r.options with
  | error g => exact written_failed [] g
  | ok options =>
    cases hn : StepCount.ofLiteral (.text r.steps) with
    | error g => exact written_failed [] g
    | ok n =>
      cases hload : Document.load read r.file with
      | error g => exact written_failed [] g
      | ok loaded =>
        obtain ⟨document, size⟩ := loaded
        rw [hoptions, hn, hload] at h
        obtain ⟨bytes, hbytes, rfl⟩ := Document.exists_of_load hload
        exact written_write_eq_nil (Document.unbroken_ofText _)
          (short_of_request hturbo hoptions hn (hlines bytes hbytes)) h

/-! ### Refusals -/

/-- A document is refused if its file cannot be opened, or by the way to read files itself. -/
theorem load_refused_iff {path : Text} {f : Fault} :
    (Document.load read path = .error f ∧ f.isRefusal = true) ↔
      (∃ path' why, read path = .error (.fileUnavailable path' why) ∧
        f = .documentUnavailable path why.reason) ∨
      (read path = .error f ∧ f.isRefusal = true) := by
  unfold Document.load
  cases hread : read path with
  | ok bytes => simp
  | error g =>
    cases g with
    | fileUnavailable path' why =>
      constructor
      · rintro ⟨⟨⟩, -⟩
        exact .inl ⟨path', why, rfl, rfl⟩
      · rintro (⟨_, _, ⟨⟩, rfl⟩ | ⟨⟨⟩, hf⟩)
        · exact ⟨rfl, rfl⟩
        · cases hf
    | _ => simp

/-- Once the document is read, only one without content is refused. -/
theorem script_refused_iff {f : Fault} (hd : setting.document.Unbroken) :
    (((Session.script (.whole n)).run (Session.ofSetting setting source)).1 = .error f ∧
      f.isRefusal = true) ↔
    0 < n ∧ (∀ line ∈ setting.document.lines, line.content = []) ∧ f = .documentEmpty := by
  rw [← Document.hasContent_eq_false_iff]
  have hcount : setting.stepCount (.whole n) =
      if n ≠ 0 ∧ setting.document.hasContent = false then .error .documentEmpty else .ok n :=
    Setting.stepCount_eq (.whole n)
  by_cases hempty : n ≠ 0 ∧ setting.document.hasContent = false
  · rw [if_pos hempty] at hcount
    rw [Session.run_script_of_stepCount_error (s := Session.ofSetting setting source) hcount]
    constructor
    · rintro ⟨⟨⟩, -⟩
      exact ⟨Nat.pos_of_ne_zero hempty.1, hempty.2, rfl⟩
    · rintro ⟨-, -, rfl⟩
      exact ⟨rfl, rfl⟩
  · rw [if_neg hempty] at hcount
    refine iff_of_false ?_ fun h => hempty ⟨Nat.pos_iff_ne_zero.1 h.1, h.2.1⟩
    rintro ⟨h, hf⟩
    obtain ⟨lines, -, hscript⟩ | ⟨lines, g, -, hscript, hg, -⟩ :=
      Stream.writeAll_or_script (s := Session.ofSetting setting source) hd hcount
    · cases hscript.symm.trans h
    · cases hscript.symm.trans h
      cases hg.symm.trans hf

/-- **The first thing that is wrong** is what a request is refused for. -/
theorem refused_iff {f : Fault} (hturbo : Numeral.Writable r.turbo) :
    (r.script read source = .error f ∧ f.isRefusal = true) ↔ r.Refused read f := by
  rw [Request.script_eq]
  constructor
  · rintro ⟨h, hf⟩
    cases hoptions : r.options with
    | error g =>
      rw [hoptions] at h
      cases h
      obtain ⟨hpos, rfl⟩ := (options_eq_error_iff hturbo).1 hoptions
      exact .turbo hpos
    | ok options =>
      have hpos := (options_eq_ok hoptions).1
      cases hn : StepCount.ofLiteral (.text r.steps) with
      | error g =>
        rw [hoptions, hn] at h
        cases h
        exact .steps hpos (StepCount.ofLiteral_eq_error_iff.1 hn) hf
      | ok n =>
        have haccepts := StepCount.ofLiteral_eq_ok_iff.1 hn
        cases hload : Document.load read r.file with
        | error g =>
          rw [hoptions, hn, hload] at h
          cases h
          rcases load_refused_iff.1 ⟨hload, hf⟩ with ⟨path, why, hread, rfl⟩ | ⟨hread, hf⟩
          · exact .file hpos haccepts hread
          · exact .reader hpos haccepts hread hf
        | ok loaded =>
          obtain ⟨document, size⟩ := loaded
          rw [hoptions, hn, hload] at h
          obtain ⟨bytes, hbytes, rfl⟩ := Document.exists_of_load hload
          obtain ⟨hn', hempty, rfl⟩ := (script_refused_iff (Document.unbroken_ofText _)).1 ⟨h, hf⟩
          exact .empty hpos haccepts hn' hbytes hempty
  · intro h
    have hoptions (hpos : 0 < r.turbo) : ∃ options, r.options = .ok options := by
      cases hoptions : r.options with
      | error g => exact absurd hpos (Int.not_lt.2 ((options_eq_error_iff hturbo).1 hoptions).1)
      | ok options => exact ⟨options, rfl⟩
    cases h with
    | turbo hpos =>
      rw [(options_eq_error_iff hturbo).2 ⟨hpos, rfl⟩]
      exact ⟨rfl, rfl⟩
    | steps hpos hrefuses hf =>
      obtain ⟨options, hoptions⟩ := hoptions hpos
      rw [hoptions, StepCount.ofLiteral_eq_error_iff.2 hrefuses]
      exact ⟨rfl, hf⟩
    | file hpos haccepts hread =>
      obtain ⟨options, hoptions⟩ := hoptions hpos
      obtain ⟨hload, hf⟩ := load_refused_iff.2 (.inl ⟨_, _, hread, rfl⟩)
      rw [hoptions, StepCount.ofLiteral_eq_ok_iff.2 haccepts, hload]
      exact ⟨rfl, hf⟩
    | reader hpos haccepts hread hf =>
      obtain ⟨options, hoptions⟩ := hoptions hpos
      obtain ⟨hload, hf⟩ := load_refused_iff.2 (.inr ⟨hread, hf⟩)
      rw [hoptions, StepCount.ofLiteral_eq_ok_iff.2 haccepts, hload]
      exact ⟨rfl, hf⟩
    | @empty n bytes hpos haccepts hn hread hempty =>
      obtain ⟨options, hoptions⟩ := hoptions hpos
      have hload : Document.load read r.file =
          .ok (.ofText (Utf8.decode bytes), bytes.length) := by
        unfold Document.load
        rw [hread]
      have hd : (settingOf bytes r.file options).document.Unbroken := Document.unbroken_ofText _
      rw [hoptions, StepCount.ofLiteral_eq_ok_iff.2 haccepts, hload]
      exact (script_refused_iff hd).2 ⟨hn, hempty, rfl⟩

/-- **The program and the library agree.** The run of a request from a command line, with any way to
read files, comes to what the library's script for the request comes to: the lines are written, or a
refusal is reported, or the same failure is let through. A failure comes before anything is written
(the document must have fewer than `10 ^ 4300` lines, as all do). The refusals are those of the
options, the step count, the file and the document, and the first of them counts. -/
theorem program_agrees {arguments : List Text} (hr : request arguments = .ok r) (read : Reader)
    (source : σ) :
    let o := run r read source
    let made := r.script read source
    o.Reports made ∧
    (∀ f, made = .error f → (∀ bytes, read r.file = .ok bytes →
      (Utf8.decode bytes).lines.length < 10 ^ Numeral.limit) → o.written = []) ∧
    ∀ f, (made = .error f ∧ f.isRefusal = true) ↔ r.Refused read f :=
  have hturbo := writable_turbo hr
  ⟨reports_run r read source, fun _ h hlines => written_run_eq_nil hturbo hlines h,
    fun _ => refused_iff hturbo⟩

/-- A script is written for a file named from the root; and where options, step count and file are
all wrong, the options are reported. -/
theorem program_agrees_written_and_refused : ∃ (read : Reader) (source : Tape),
    (∃ r lines, request ["--turbo=7", "--no-replace-all", "5", "/tmp/doc", "binary"] = .ok r ∧
      read r.file = .ok (Utf8.encode "Alice (1)\n") ∧ r.script read source = .ok lines ∧
      lines.take 9 = (["BINARY", "OPEN \"/tmp/doc\"", "TURBO 7", "INSERTSTRING \"Alice (1)\"",
        "FIND \"lic\"", "REPLACEONCE \"Al\"", "MARKVERT", "COPY", "PASTEVERT"] : List Text) ∧
      (run r read source).status = .ok 0 ∧ (run r read source).written = Text.ofLines lines) ∧
    ∃ r, request ["--turbo=0", "many", "/tmp/none"] = .ok r ∧
      read r.file = .error (.fileUnavailable "/tmp/none" .notFound) ∧
      (run r read source).status = .ok 1 ∧ (run r read source).written = [] ∧
      ∃ notes : List Text, (run r read source).journal =
        notes.map .info ++ [.error "turbo must be positive, got 0"] := by
  let read : Reader := fun path =>
    if path = Text.ofString "/tmp/doc" then .ok (Utf8.encode "Alice (1)\n")
    else .error (.fileUnavailable path .notFound)
  let source : Tape := ⟨[99, 2, 0, 40, 2, 0, 1, 2, 0, 0, 1, 30, 0, 1, 30, 0, 0, 30, 0, 1], []⟩
  let asked : Request := ⟨"5", "/tmp/doc", true, none, 7, false, none, false⟩
  let wrong : Request := ⟨"many", "/tmp/none", false, none, 0, true, none, false⟩
  have hasked :
      request ["--turbo=7", "--no-replace-all", "5", "/tmp/doc", "binary"] = .ok asked := rfl
  have hwrong : request ["--turbo=0", "many", "/tmp/none"] = .ok wrong := rfl
  have hlines : (asked.script read source).toOption.map (List.take 9) = some (["BINARY",
      "OPEN \"/tmp/doc\"", "TURBO 7", "INSERTSTRING \"Alice (1)\"", "FIND \"lic\"",
      "REPLACEONCE \"Al\"", "MARKVERT", "COPY", "PASTEVERT"] : List Text) := by
    simp only [asked, read, source]
    decide +kernel
  refine ⟨read, source, ?written, wrong, hwrong, rfl, ?refused⟩
  case written =>
    obtain ⟨hreports, -, -⟩ := program_agrees hasked read source
    cases hmade : asked.script read source with
    | error f =>
      rw [hmade] at hlines
      cases hlines
    | ok lines =>
      rw [hmade] at hlines hreports
      obtain ⟨hstatus, hwritten⟩ := hreports.of_ok
      exact ⟨asked, lines, hasked, if_pos rfl, hmade, Option.some.inj hlines, hstatus, hwritten⟩
  case refused =>
    obtain ⟨hreports, -, hrefused⟩ := program_agrees hwrong read source
    obtain ⟨hmade, -⟩ := (hrefused (.turboNotPositive 0)).2 (.turbo (Int.le_refl 0))
    rw [hmade] at hreports
    cases hreports with
    | @refused _ notes _ hstatus hwritten hjournal => exact ⟨hstatus, hwritten, notes, hjournal⟩
    | raised hraised => cases hraised

end Generate
end UndoScript

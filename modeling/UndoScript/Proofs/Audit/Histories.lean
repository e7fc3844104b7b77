/-
# Every history of the clipboard is reached

A session refuses nothing of the clipboard that a reader allows: after any
history without problems it may go on with every command that brings none, so
each such history is drawn, command by command, by the steps of some script.
The draws lead every step to a turn of selecting and pasting, and never to one
in which the clipboard rests.

Key definitions: `Clipboard.turns`.
Key theorems: `Turn.of_obey`, `Memory.exists_obeyAll`,
`Setting.exists_walk_of_obeyAll`, `Session.reaches_history`.
-/
import UndoScript.Proofs.Audit.Lockstep
import UndoScript.Proofs.Audit.Parts
import UndoScript.Proofs.Session.Draws
import UndoScript.Proofs.Session.Generation
import UndoScript.Proofs.Session.Script

namespace UndoScript

/-- The commands of the turns of selecting and pasting. -/
def Clipboard.turns : List Phrase :=
  [(.mark, .absent), (.markVert, .absent), (.copy, .absent), (.cut, .absent), (.erase, .absent),
   (.through, .bare "sort"), (.paste, .absent), (.pasteVert, .absent)]

variable {s : Setting} {m m' : Memory} {c : Command} {w : List Command}

/-! ### What the memory lets happen -/

namespace Memory

theorem openSelection_eq_ok_iff : m.openSelection = .ok m' ↔
    m.selecting = false ∧ m.clipboardFull = false ∧ m' = { m with selecting := true } := by
  unfold openSelection
  cases m.selecting <;> cases m.clipboardFull <;> simp [eq_comm]

theorem closeSelection_eq_ok_iff {clip : Bool} : m.closeSelection clip = .ok m' ↔
    m.selecting = true ∧
      m' = { m with selecting := false, clipboardFull := m.clipboardFull || clip } := by
  unfold closeSelection
  cases m.selecting <;> simp [eq_comm]

theorem paste_eq_ok_iff : m.paste = .ok m' ↔
    m.selecting = false ∧ m.clipboardFull = true ∧ m' = { m with clipboardFull := false } := by
  unfold paste
  cases m.selecting <;> cases m.clipboardFull <;> simp [eq_comm]

/-- A memory that a reader finds nothing wrong with goes through to the end. -/
theorem exists_obeyAll (h : m.notes.allProblems w = []) : ∃ m', m.obeyAll w = .ok m' := by
  cases hobeys : m.obeyAll w with
  | ok m' => exact ⟨m', rfl⟩
  | error f =>
    obtain ⟨c, hstops⟩ := exists_stopsAt hobeys
    obtain ⟨p, others, rule, hproblems, -⟩ := hstops.first_problem
    rw [h] at hproblems
    cases hproblems

end Memory

/-- **What the memory lets happen is a turn.** -/
theorem Turn.of_obey (hc : c.phrase ∈ Clipboard.turns) (h : m.obey c = .ok m') :
    Turn m [c.phrase] m' := by
  generalize hp : c.phrase = p at hc ⊢
  have hkeyword : c.keyword = p.1 := congrArg Prod.fst hp
  unfold Memory.obey at h
  rw [hkeyword] at h
  simp only [Clipboard.turns, List.mem_cons, List.not_mem_nil, or_false] at hc
  rcases hc with rfl | rfl | rfl | rfl | rfl | rfl | rfl | rfl
  · obtain ⟨hidle, hempty, rfl⟩ := Memory.openSelection_eq_ok_iff.1 h
    exact .mark (.inl rfl) hidle hempty
  · obtain ⟨hidle, hempty, rfl⟩ := Memory.openSelection_eq_ok_iff.1 h
    exact .mark (.inr rfl) hidle hempty
  · obtain ⟨hselecting, rfl⟩ := Memory.closeSelection_eq_ok_iff.1 h
    rw [Bool.or_true]
    exact .copy hselecting
  · obtain ⟨hselecting, rfl⟩ := Memory.closeSelection_eq_ok_iff.1 h
    rw [Bool.or_true]
    exact .cut hselecting
  · obtain ⟨hselecting, rfl⟩ := Memory.closeSelection_eq_ok_iff.1 h
    rw [Bool.or_false]
    exact .erase hselecting
  · obtain ⟨hselecting, rfl⟩ := Memory.closeSelection_eq_ok_iff.1 h
    rw [Bool.or_false]
    exact .sort hselecting
  · obtain ⟨hidle, hfull, rfl⟩ := Memory.paste_eq_ok_iff.1 h
    exact .paste (.inl rfl) hidle hfull
  · obtain ⟨hidle, hfull, rfl⟩ := Memory.paste_eq_ok_iff.1 h
    exact .paste (.inr rfl) hidle hfull

/-! ### Commands in turn -/

/-- **What the memory lets happen is a walk,** each step of which makes one of the commands. -/
theorem Setting.exists_walk_of_obeyAll (s : Setting) (hw : ∀ c ∈ w, c.phrase ∈ Clipboard.turns)
    (hm : 0 ≤ m.mutations) (h : m.obeyAll w = .ok m') :
    ∃ ts, s.Walk m ts m' ∧ ts.map Step.commands = w.map fun c => [c] := by
  induction w generalizing m with
  | nil =>
    cases h
    exact ⟨[], .rest _, rfl⟩
  | cons c w ih =>
    rw [Memory.obeyAll_cons] at h
    cases hc : m.obey c with
    | error f =>
      rw [hc] at h
      cases h
    | ok reached =>
      rw [hc] at h
      have hemits : Emits s m .clipboard ([c].map Command.phrase) reached :=
        .turn (.of_obey (hw c List.mem_cons_self) hc)
      have hstep : (s.step m).Yields ⟨.clipboard, [c], reached⟩ :=
        (yields_step_iff hm).2 ⟨reached, hemits, rfl⟩
      have hreached : 0 ≤ reached.mutations := by
        rw [hemits.mutations_eq]
        exact hm
      obtain ⟨ts, hwalk, hts⟩ := ih (fun d hd => hw d (List.mem_cons_of_mem c hd)) hreached h
      refine ⟨⟨.clipboard, [c], reached⟩ :: ts, .step hstep hwalk, ?_⟩
      rw [List.map_cons, List.map_cons, hts]

/-! ### Whole scripts -/

/-- Openings, closings and turns are written, if the numbers of the options are short. -/
theorem Setting.renders_of_turns {opening closing : List Command} {utf8 : Nat} (hutf8 : utf8 < 2)
    (hturbo : s.options.turbo < 10 ^ Numeral.limit)
    (hdepth : s.options.undoDepth < 10 ^ Numeral.limit)
    (hopening : opening.map Command.phrase = s.openingPhrases utf8)
    (hclosing : closing.map Command.phrase = s.closingPhrases)
    (hw : ∀ c ∈ w, c.phrase ∈ Clipboard.turns) :
    ∀ c ∈ opening ++ (w ++ closing), c.Renders := by
  have hopening' : ∀ p ∈ s.openingPhrases utf8, ∀ n, p.2 = .number n → Numeral.Writable n := by
    apply forall_openingPhrases (P := fun p => ∀ n, p.2 = .number n → Numeral.Writable n) hutf8
    · exact fun _ _ he => nomatch he
    · exact fun _ he => nomatch he
    · rintro n ⟨⟩
      exact Numeral.writable_of_nonneg_of_lt s.options.turbo_pos.le hturbo
    · rintro k flag hflag n ⟨⟩
      exact Numeral.writable_of_lt (lt_trans (by omega) limit_large)
  have hclosing' : ∀ p ∈ s.closingPhrases, ∀ n, p.2 = .number n → Numeral.Writable n := by
    apply forall_closingPhrases (P := fun p => ∀ n, p.2 = .number n → Numeral.Writable n)
    · exact fun _ _ he => nomatch he
    · exact fun _ _ _ he => nomatch he
    · rintro k n ⟨⟩
      exact Numeral.writable_of_nonneg_of_lt s.options.undoDepth_pos.le hdepth
  have hturns : ∀ p ∈ Clipboard.turns, ∀ n, p.2 ≠ .number n := by simp [Clipboard.turns]
  intro c hc
  rw [renders_iff]
  simp only [List.mem_append] at hc
  rcases hc with hc | hc | hc
  · exact Command.forall_of_phrases hopening hopening' c hc
  · exact fun n hn => absurd hn (hturns _ (hw c hc) n)
  · exact Command.forall_of_phrases hclosing hclosing' c hc

namespace Session

/-- **Every history of the clipboard is reached.** For some commands of turns of selecting and
pasting that a reader of the clipboard finds nothing wrong with, there are draws under which a
session, whatever it remembers, gives out an opening with either choice of UTF-8, then these
commands and no others, and then the closing, in as many steps as there are commands. In one go it
writes the lines of just these, unless the steps are too many to be summed up. -/
theorem reaches_history (hcontent : s.document.hasContent = true)
    (ht : Glyph.newline ∉ s.target) (hturbo : s.options.turbo < 10 ^ Numeral.limit)
    (hdepth : s.options.undoDepth < 10 ^ Numeral.limit)
    (hw : ∀ c ∈ w, c.phrase ∈ Clipboard.turns) (hproblems : Audit.clipboard w = .ok [])
    {utf8 : Nat} (hutf8 : utf8 < 2) (m : Memory) (tally : Tally) :
    ∃ (draws : List Nat) (opening closing : List Command) (s' : Session Tape),
      (Stream.ready w.length).Gives (⟨s, m, tally, ⟨draws, []⟩⟩ : Session Tape)
        (opening ++ (w ++ closing)) (excess w.length) ∧
      (script (.whole w.length)).run ⟨s, m, tally, ⟨draws, []⟩⟩ =
        (Fault.unless (excess w.length) ((opening ++ (w ++ closing)).map Command.text), s') ∧
      opening.map Command.phrase = s.openingPhrases utf8 ∧
      closing.map Command.phrase = s.closingPhrases := by
  obtain ⟨reached, hobeys⟩ :=
    Memory.exists_obeyAll (m := .fresh) (Problem.report_eq_nil_iff.1 hproblems)
  obtain ⟨ts, hwalk, hts⟩ := s.exists_walk_of_obeyAll hw (Int.le_refl 0) hobeys
  obtain ⟨opening, hyields, hopening⟩ := Setting.exists_opening ht hutf8
  obtain ⟨closing, hcloses, hclosing⟩ := Setting.exists_closing ht
  obtain ⟨draws, s₁, s₂, hstart, hgroups, hlast⟩ :=
    exists_draws_of_parts hyields hwalk hcloses m tally
  have hlength : ts.length = w.length := by simpa using congrArg List.length hts
  have hflatten : (ts.map Step.commands).flatten = w := by
    rw [hts, ← List.flatMap_def]
    exact List.flatMap_singleton' w
  have hvalue : s.stepCount (.whole w.length) = .ok w.length :=
    Setting.stepCount_eq_ok_iff.2 ⟨.whole _, .inr hcontent⟩
  rw [hlength] at hgroups
  have hgives := Stream.gives_ready hstart hgroups hlast
  rw [of_summary_eq_of_start hstart hgroups, hflatten] at hgives
  have hscript := run_script hvalue hstart hgroups hlast
  rw [hflatten] at hscript
  exact ⟨draws, opening, closing, s₂, hgives,
    hscript (Setting.renders_of_turns hutf8 hturbo hdepth hopening hclosing hw), hopening, hclosing⟩

/-- An upright selection that is cut and pasted, and one that is sorted, are a history. -/
theorem reaches_history_of_two_selections : ∃ w : List Command,
    w.map Command.phrase = [(.markVert, .absent), (.cut, .absent), (.pasteVert, .absent),
      (.mark, .absent), (.through, .bare "sort")] ∧
    ∃ (draws : List Nat) (opening closing : List Command) (s' : Session Tape),
      (script (.whole 5)).run
          (ofSetting ⟨.ofText "ab\n", "a.c", .standard⟩ (⟨draws, []⟩ : Tape)) =
        (.ok ((opening ++ (w ++ closing)).map Command.text), s') := by
  have hshort : Setting.Short ⟨.ofText "ab\n", "a.c", .standard⟩ 5 :=
    .of_lt (by decide) (by decide) (by decide) (by decide)
  let w : List Command := [.plain .markVert, .plain .cut, .plain .pasteVert, .plain .mark,
    ⟨.through, .bare "sort", by decide⟩]
  obtain ⟨draws, opening, closing, s', -, hscript, -, -⟩ :=
    reaches_history (s := ⟨.ofText "ab\n", "a.c", .standard⟩) (w := w) (by decide) (by decide)
      hshort.turbo hshort.undoDepth (by decide) rfl (show 1 < 2 by decide) .fresh .zero
  have hfew : excess w.length = none := excess_of_lt hshort.steps
  rw [hfew] at hscript
  exact ⟨w, rfl, draws, opening, closing, s', hscript⟩

end Session
end UndoScript

/-
# A whole script or nothing

Asking for a script either fails at once, for a value that is no step count or
a document that has no text for the steps, and then nothing has been drawn or
forgotten; or it gives a stream. The stream fails with its first command, for
a line feed in the target, or it gives out a whole script. After the script it
fails only if its steps are too many to be told.

Key definitions: `Stream.Gives`.
Key theorems: `Setting.stepCount_eq_ok_iff`, `Setting.stepCount_eq_error_iff`,
`Session.complete_or_nothing`, `Session.not_complete_or_nothing`.
-/
import UndoScript.Proofs.Session.Stream

namespace UndoScript

namespace Setting

variable {s : Setting} {value : Literal} {n : Nat} {f : Fault}

/-! ### How many steps a value asks for -/

theorem stepCount_eq (value : Literal) : s.stepCount value =
    match StepCount.ofLiteral value with
    | .ok n => if n ≠ 0 ∧ s.document.hasContent = false then .error .documentEmpty else .ok n
    | .error f => .error f := by
  unfold stepCount
  cases StepCount.ofLiteral value with
  | error f => rfl
  | ok n =>
    show (if n ≠ 0 ∧ s.document.hasContent = false then _ else _) = ite _ _ _
    split <;> rfl

/-- A count is good for a document with content, and zero for every document. -/
theorem stepCount_eq_ok_iff : s.stepCount value = .ok n ↔
    StepCount.Accepts value n ∧ (n = 0 ∨ s.document.hasContent = true) := by
  rw [stepCount_eq, ← StepCount.ofLiteral_eq_ok_iff]
  cases StepCount.ofLiteral value with
  | error f => simp
  | ok k =>
    dsimp only
    by_cases hempty : k ≠ 0 ∧ s.document.hasContent = false
    · rw [if_pos hempty]
      simp only [reduceCtorEq, Except.ok.injEq, false_iff, not_and]
      rintro rfl
      simp [hempty]
    · rw [if_neg hempty]
      simp only [Except.ok.injEq, iff_self_and]
      rintro rfl
      rw [not_and_or, not_not, Bool.not_eq_false] at hempty
      exact hempty

/-- A whole number from 0 up counts itself. -/
theorem eq_of_stepCount_whole {k : Nat} (h : s.stepCount (.whole n) = .ok k) : n = k := by
  simpa using StepCount.accepts_whole_iff.1 (stepCount_eq_ok_iff.1 h).1

theorem stepCount_eq_error_iff : s.stepCount value = .error f ↔
    StepCount.Refuses value f ∨ ∃ n, StepCount.Accepts value n ∧ 0 < n ∧
      s.document.hasContent = false ∧ f = .documentEmpty := by
  rw [stepCount_eq, ← StepCount.ofLiteral_eq_error_iff]
  simp only [← StepCount.ofLiteral_eq_ok_iff]
  cases StepCount.ofLiteral value with
  | error g => simp
  | ok k =>
    dsimp only
    by_cases hempty : k ≠ 0 ∧ s.document.hasContent = false
    · rw [if_pos hempty]
      simp [hempty, eq_comm, Nat.pos_iff_ne_zero]
    · rw [if_neg hempty]
      simp only [reduceCtorEq, Except.ok.injEq, exists_eq_left', false_or, false_iff]
      rintro ⟨hpos, hfalse, -⟩
      exact hempty ⟨by omega, hfalse⟩

end Setting

namespace Session

variable {σ : Type} [Source σ] {s : Session σ} {value : Literal}

omit [Source σ] in
/-- Asking for a script only judges the value. -/
theorem run_generate (value : Literal) (s : Session σ) :
    (generate value).run s = ((s.setting.stepCount value).map Stream.ready, s) := by
  unfold generate
  rw [run_get_bind, run_bind, run_liftM]
  cases s.setting.stepCount value <;> rfl

end Session

/-- However many commands are taken, they are the first of these; whoever asks for more than there
are gets them all, or the failure, and the stream has ended. -/
def Stream.Gives {σ : Type} [Source σ] (stream : Stream) (s : Session σ) (cs : List Command)
    (fault : Option Fault) : Prop :=
  ∀ k, (k ≤ cs.length → (stream.take k s).1.1 = .ok (cs.take k)) ∧
    (cs.length < k → (stream.take k s).1 = (Fault.unless fault cs, .ended))

namespace Stream

variable {σ : Type} [Source σ] {s : Session σ} {n : Nat} {fault : Option Fault}

/-- What is taken without a failure are the first commands. -/
theorem Gives.take_eq {stream : Stream} {cs taken : List Command} {k : Nat}
    (h : stream.Gives s cs fault) (htaken : (stream.take k s).1.1 = .ok taken) :
    cs.take k = taken := by
  rcases Nat.lt_or_ge cs.length k with hlt | hle
  · rw [(h k).2 hlt] at htaken
    cases fault with
    | some f => cases htaken
    | none =>
      rw [List.take_of_length_le hlt.le]
      exact Except.ok.inj htaken
  · rw [(h k).1 hle] at htaken
    exact Except.ok.inj htaken

/-- The same, with what the commands say. -/
theorem Gives.phrases_eq {stream : Stream} {cs : List Command} {ps : List Phrase} {k : Nat}
    (h : stream.Gives s cs fault)
    (htaken : (stream.take k s).1.1.map (List.map Command.phrase) = .ok ps) :
    (cs.take k).map Command.phrase = ps := by
  cases hrun : (stream.take k s).1.1 with
  | error f =>
    rw [hrun] at htaken
    cases htaken
  | ok taken =>
    rw [hrun] at htaken
    rw [h.take_eq hrun]
    exact Except.ok.inj htaken

/-- A stream that gives anything does not fail at first. -/
theorem Gives.next_ne_error {stream : Stream} {cs : List Command} {f : Fault}
    (h : stream.Gives s cs fault) (hcs : cs ≠ []) : (stream.next s).1.1 ≠ .error f := by
  intro hf
  have hone := (h 1).1 (List.length_pos_iff.2 hcs)
  rw [Stream.take.eq_def] at hone
  dsimp only at hone
  rcases hnext : stream.next s with ⟨⟨r, after⟩, s₁⟩
  rw [hnext] at hone hf
  obtain rfl : r = .error f := hf
  cases hone

/-- A line feed in the target is noticed before the first command. -/
theorem next_ready_of_newline_mem (ht : Glyph.newline ∈ s.setting.target) :
    ((ready n).next s).1 = (.error (.broken (.spansLines .openFile)), .ended) := by
  obtain ⟨source, hstart⟩ := Session.run_start_of_newline_mem ht
  show (goOn (Session.start.run s) _).1 = _
  rw [hstart]
  rfl

/-- Otherwise the stream gives out what the parts come to. -/
theorem gives_ready {opening closing : List Command} {gs : List (List Command)}
    {s₁ s₂ s₃ : Session σ} (hstart : Session.start.run s = (.ok opening, s₁))
    (hgroups : (Session.groups n).run s₁ = (.ok gs, s₂))
    (hclosing : Session.closing.run s₂ = (.ok closing, s₃)) :
    (ready n).Gives s (opening ++ (gs.flatten ++ closing)) (Fault.of (s₃.summary n)) := by
  intro k
  obtain ⟨hfirst, hend⟩ := (runs_ready hstart hgroups hclosing).take k
  exact ⟨hfirst, fun hlt => by rw [hend hlt]⟩

/-- And that is a whole script, which can be summed up unless it has too many steps. -/
theorem exists_script (hd : s.setting.document.Unbroken) (ht : Glyph.newline ∉ s.setting.target)
    (hn : n = 0 ∨ s.setting.document.hasContent = true) :
    ∃ cs, s.setting.IsScript n cs ∧ (ready n).Gives s cs (Session.excess n) := by
  obtain ⟨opening, ts, closing, s₁, s₂, hstart, hgroups, hclosing, hparts⟩ :=
    Session.exists_parts hd ht hn
  have hgives := gives_ready hstart hgroups hclosing
  rw [Session.of_summary_eq_of_start hstart hgroups] at hgives
  exact ⟨_, ⟨opening, ts, closing, hparts, rfl⟩, hgives⟩

end Stream

namespace Session

variable {σ : Type} [Source σ] {s : Session σ} {text : Text}

/-- **A whole script or nothing.** Asking for a script leaves the session as it was, and fails
exactly for a value that is no step count and for steps without text to take. What it gives is a
stream that fails at its first command, exactly for a line feed in the target, and that otherwise
gives out a whole script. Once it gives out commands there is a next one until the last, whatever
else happens to the session; and after the last it fails only for a summary with a number that is
too large, which a script of its own has exactly if it has too many steps. -/
theorem complete_or_nothing (hdocument : s.setting.document = .ofText text) (value : Literal) :
    ((generate value).run s).2 = s ∧
    (∀ f, ((generate value).run s).1 = .error f ↔
      StepCount.Refuses value f ∨ ∃ n, StepCount.Accepts value n ∧ 0 < n ∧
        (∀ line ∈ s.setting.document.lines, line.content = []) ∧ f = .documentEmpty) ∧
    ∀ stream, ((generate value).run s).1 = .ok stream → ∃ n, StepCount.Accepts value n ∧
      ((∃ f, (stream.next s).1.1 = .error f) ↔ Glyph.newline ∈ s.setting.target) ∧
      (Glyph.newline ∈ s.setting.target →
        (stream.next s).1 = (.error (.broken (.spansLines .openFile)), .ended)) ∧
      (Glyph.newline ∉ s.setting.target →
        (∃ cs, s.setting.IsScript n cs ∧ stream.Gives s cs (excess n)) ∧
        (∀ (left : Nat) (pending : List Command) (s' : Session σ), left ≤ n →
          s'.setting = s.setting → 0 ≤ s'.memory.mutations →
          ∃ c after, ((Stream.running n pending left).next s').1 = (.ok (some c), after)) ∧
        ∀ (pending : List Command) (s' : Session σ) (f : Fault),
          ((Stream.closing n pending).next s').1.1 = .error f ↔
            pending = [] ∧ ¬ s'.HasSummary n ∧ f = .numberTooLarge) := by
  have hd : s.setting.document.Unbroken := hdocument ▸ Document.unbroken_ofText text
  refine ⟨by rw [run_generate], fun f => ?_, fun stream hstream => ?_⟩
  · rw [run_generate, ← Document.hasContent_eq_false_iff, ← Setting.stepCount_eq_error_iff]
    cases s.setting.stepCount value <;> simp [Except.map]
  · rw [run_generate] at hstream
    cases hcount : s.setting.stepCount value with
    | error f =>
      rw [hcount] at hstream
      cases hstream
    | ok n =>
      rw [hcount] at hstream
      cases hstream
      obtain ⟨haccepts, hn⟩ := Setting.stepCount_eq_ok_iff.1 hcount
      refine ⟨n, haccepts, ⟨?_, fun ht => ?_⟩, Stream.next_ready_of_newline_mem,
        fun ht => ⟨?_, ?_, fun pending s' f => Stream.next_closing_eq_error_iff⟩⟩
      · rintro ⟨f, hf⟩
        by_contra ht
        obtain ⟨cs, hscript, hgives⟩ := Stream.exists_script hd ht hn
        exact hgives.next_ne_error hscript.ne_nil hf
      · exact ⟨_, by rw [Stream.next_ready_of_newline_mem ht]⟩
      · exact Stream.exists_script hd ht hn
      · intro left pending s' hleft hsetting hm
        rw [← hsetting] at hd ht hn
        refine Stream.exists_next_running hd ht hm (hn.imp_left fun h => ?_)
        omega

/-- A whole script that inserts, replaces, and moves a selection. -/
theorem whole_script_of_five_steps : ∃ (s : Session Tape) (stream : Stream) (cs : List Command),
    s.setting = ⟨.ofText "ab\n", "a.c", .standard⟩ ∧
    ((generate (.text "5")).run s).1 = .ok stream ∧
    s.setting.IsScript 5 cs ∧ stream.Gives s cs none ∧
    (cs.take 10).map Command.phrase =
      [(.openFile, .quoted "a.c"), (.turbo, .number 10000), (.autoMatchBracket, .number 1),
       (.utf8, .number 0), (.insertString, .quoted "ab"), (.find, .quoted "a"),
       (.replaceAll, .quoted "a"), (.mark, .absent), (.cut, .absent), (.paste, .absent)] := by
  obtain ⟨-, -, hstream⟩ := complete_or_nothing
    (s := ofSetting ⟨.ofText "ab\n", "a.c", .standard⟩
      (⟨[0, 99, 2, 0, 40, 2, 0, 0, 0, 0, 0, 0, 0, 30, 0, 0, 30, 0, 1, 30, 0, 0], []⟩ : Tape))
    rfl (.text "5")
  obtain ⟨n, haccepts, -, -, hwhole⟩ := hstream _ rfl
  obtain rfl : n = 5 := (StepCount.accepts_text_iff.1 haccepts).2.2
  obtain ⟨⟨cs, hscript, hgives⟩, -, -⟩ := hwhole (by decide)
  have hfew : excess 5 = none := excess_of_lt (Numeral.lt_limit (by decide))
  rw [hfew] at hgives
  exact ⟨_, _, cs, rfl, rfl, hscript, hgives, hgives.phrases_eq rfl⟩

/-- **Not every value that is no step count is refused as one:** a whole number below zero is not,
if it has a digit too many to be shown. -/
theorem not_complete_or_nothing : ¬ ∀ (s : Session Tape) (value : Literal) (f : Fault),
    ((generate value).run s).1 = .error f → f = .stepCountRefused value ∨
      (∃ t digits, value = .text t ∧ f = .numeralTooLong digits) ∨ f = .documentEmpty := by
  intro h
  have hnegative : -(10 ^ Numeral.limit) < (0 : Int) :=
    Int.neg_neg_of_pos (pow_pos (show (0 : Int) < 10 by decide) _)
  have hrefusal : StepCount.refusal (.whole (-(10 ^ Numeral.limit))) = .numberTooLarge :=
    StepCount.refusal_of_not_writable (mt Numeral.writable_neg_iff.1 Numeral.not_writable_limit)
  let s : Session Tape := ofSetting ⟨.ofText "ab\n", "a.c", .standard⟩ ⟨[], []⟩
  have hfails : ((generate (.whole (-(10 ^ Numeral.limit)))).run s).1 = .error .numberTooLarge := by
    rw [run_generate, Setting.stepCount_eq_error_iff.2 (.inl (StepCount.refuses_of_neg hnegative)),
      hrefusal]
    rfl
  rcases h _ _ _ hfails with hrefused | ⟨_, _, _, hlong⟩ | hempty
  · cases hrefused
  · cases hlong
  · cases hempty

end Session
end UndoScript

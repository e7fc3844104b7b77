/-
# What a script comes to in one go

A script that is written in one go opens, takes its steps and closes, or it
breaks off: the opening fails, or one of the steps does, and then what was
made before it is all there is. No closing fails after an opening that did
not, but after it there may be too many steps to be summed up. The lines of the
script are those of what was made, and a script that failed does so as its last
part did.

Where nothing keeps the parts from running, the script of a session is there:
its stream gives out the same commands that are written in one go.

Key definitions: `Session.Makes`, `Session.outcome`, `Session.Generates`.
Key theorems: `Session.exists_makes`, `Session.Makes.renders`,
`Session.Makes.run_script`, `Session.exists_generates`.
-/
import UndoScript.Proofs.Audit.Parts
import UndoScript.Proofs.Session.Script

namespace UndoScript

theorem Setting.Short.mono {s : Setting} {i n : Nat} (h : s.Short n) (hi : i ≤ n) : s.Short i :=
  ⟨Nat.lt_of_le_of_lt hi h.steps, h.lines, h.turbo, h.undoDepth⟩

namespace Session

variable {σ : Type} [Source σ] {s s₁ s₂ s' : Session σ} {opening closing made : List Command}
  {gs : List (List Command)} {i n : Nat} {fault : Option Fault} {f : Fault} {value : Literal}

/-- What a script of `n` steps comes to: the commands it makes, the failure that it breaks off with
if there is one, and the session that it leaves. -/
inductive Makes (n : Nat) (s : Session σ) : List Command → Option Fault → Session σ → Prop
  /-- The opening fails. -/
  | unopened {f : Fault} {s' : Session σ} : start.run s = (.error f, s') → Makes n s [] (some f) s'
  /-- A step fails after `i` others. -/
  | broken {i : Nat} {opening : List Command} {gs : List (List Command)} {f : Fault}
    {s₁ s₂ s' : Session σ} : i < n → start.run s = (.ok opening, s₁) →
    (groups i).run s₁ = (.ok gs, s₂) → step.run s₂ = (.error f, s') →
    Makes n s (opening ++ gs.flatten) (some f) s'
  /-- Nothing fails, or only the summary. -/
  | whole {opening closing : List Command} {gs : List (List Command)} {s₁ s₂ s' : Session σ} :
    start.run s = (.ok opening, s₁) → (groups n).run s₁ = (.ok gs, s₂) →
    Session.closing.run s₂ = (.ok closing, s') →
    Makes n s (opening ++ (gs.flatten ++ closing)) (excess n) s'

/-! ### Every script comes to something -/

/-- A start that did not fail has left a fresh session, and the target is on one line. -/
theorem of_run_start (h : start.run s = (.ok opening, s₁)) :
    (∃ source, s₁ = ⟨s.setting, .fresh, .zero, source⟩) ∧ Glyph.newline ∉ s.setting.target ∧
      ∃ utf8 < 2, opening.map Command.phrase = s.setting.openingPhrases utf8 := by
  rw [run_start] at h
  rcases hrun : s.setting.opening.run s.source with ⟨f | cs, source⟩
  · rw [hrun] at h
    cases h
  · rw [hrun] at h
    cases h
    exact ⟨⟨source, rfl⟩, Setting.yields_opening (Sampler.yields_of_run hrun)⟩

/-- Steps all run, or one fails after those before it. -/
theorem run_groups_or_broken (n : Nat) (s : Session σ) :
    (∃ gs s', (groups n).run s = (.ok gs, s')) ∨
      ∃ i < n, ∃ gs s₁ f s', (groups i).run s = (.ok gs, s₁) ∧ step.run s₁ = (.error f, s') := by
  induction n generalizing s with
  | zero => exact .inl ⟨[], s, rfl⟩
  | succ n ih =>
    rcases hstep : step.run s with ⟨f | g, s₁⟩
    · exact .inr ⟨0, Nat.succ_pos n, [], s, f, s₁, rfl, hstep⟩
    · rcases ih s₁ with ⟨gs, s', hgroups⟩ | ⟨i, hi, gs, s₂, f, s', hgroups, hfail⟩
      · exact .inl ⟨g :: gs, s', run_groups_succ hstep hgroups⟩
      · exact .inr ⟨i + 1, Nat.succ_lt_succ hi, g :: gs, s₂, f, s', run_groups_succ hstep hgroups,
          hfail⟩

/-- The parts that have run, with a closing, are those of a whole script. -/
theorem exists_scriptParts (hstart : start.run s = (.ok opening, s₁))
    (hgroups : (groups n).run s₁ = (.ok gs, s₂)) : ∃ ts closing, ts.map Step.commands = gs ∧
      s₂.setting = s.setting ∧ Session.closing.run s₂ = (.ok closing, s₂) ∧
      s.setting.ScriptParts n opening ts closing := by
  obtain ⟨⟨source, rfl⟩, ht, hopening⟩ := of_run_start hstart
  obtain ⟨ts, hlength, hts, hwalk, hsetting⟩ := walk_of_run_groups hgroups
  obtain ⟨closing, hclosing, hphrases⟩ := Setting.exists_closing ht
  refine ⟨ts, closing, hts, hsetting, ?_, hopening, ⟨_, hwalk⟩, hlength, hphrases⟩
  rw [run_closing, hsetting]
  exact congrArg (·, s₂) hclosing

/-- **Every script comes to something,** whatever the document. -/
theorem exists_makes (n : Nat) (s : Session σ) : ∃ made fault s', Makes n s made fault s' := by
  rcases hstart : start.run s with ⟨f | opening, s₁⟩
  · exact ⟨[], some f, s₁, .unopened hstart⟩
  · rcases run_groups_or_broken n s₁ with ⟨gs, s₂, hgroups⟩ | ⟨i, hi, gs, s₂, f, s', hgroups, hfail⟩
    · obtain ⟨ts, closing, -, -, hclosing, -⟩ := exists_scriptParts hstart hgroups
      exact ⟨_, _, s₂, .whole hstart hgroups hclosing⟩
    · exact ⟨_, some f, s', .broken hi hstart hgroups hfail⟩

/-! ### The lines of what was made -/

/-- What was made can be written if the numbers are short, even if it was broken off. -/
theorem Makes.renders (h : Makes n s made fault s') (hshort : s.setting.Short n) :
    ∀ c ∈ made, c.Renders := by
  have hparts {i : Nat} {opening : List Command} {gs : List (List Command)} {s₁ s₂ : Session σ}
      (hi : i ≤ n) (hstart : start.run s = (.ok opening, s₁))
      (hgroups : (groups i).run s₁ = (.ok gs, s₂)) :
      ∃ closing, Session.closing.run s₂ = (.ok closing, s₂) ∧
        ∀ c ∈ opening ++ (gs.flatten ++ closing), c.Renders := by
    obtain ⟨ts, closing, rfl, -, hclosing, hparts⟩ := exists_scriptParts hstart hgroups
    exact ⟨closing, hclosing, fun c hc => (hparts.legible (hshort.mono hi) c hc).2⟩
  cases h with
  | unopened => exact fun c hc => absurd hc List.not_mem_nil
  | broken hi hstart hgroups =>
    obtain ⟨closing, -, hrenders⟩ := hparts hi.le hstart hgroups
    intro c hc
    apply hrenders
    rw [← List.append_assoc]
    exact List.mem_append_left _ hc
  | whole hstart hgroups hclosing =>
    obtain ⟨closing, hclosing', hrenders⟩ := hparts le_rfl hstart hgroups
    cases hclosing.symm.trans hclosing'
    exact hrenders

/-- The lines of what was made, unless it was broken off. -/
def outcome (made : List Command) : Option Fault → Except Fault (List Text)
  | none => .ok (made.map Command.text)
  | some f => .error f

/-- Steps break off where one of them fails. -/
theorem run_stepLines_broken (hstep : step.run s₁ = (.error f, s')) : ∀ {i n : Nat}
    {s : Session σ} {gs : List (List Command)}, i < n → (groups i).run s = (.ok gs, s₁) →
    (∀ c ∈ gs.flatten, c.Renders) → (stepLines n).run s = (.error f, s')
  | 0, n + 1, s, gs, _, hgroups, _ => by
    cases hgroups
    unfold stepLines
    rw [run_bind, run_written_eq, hstep]
  | i + 1, n + 1, s, gs, hi, hgroups, hgs => by
    obtain ⟨g, s₂, hfirst, hgroups⟩ := run_bind_eq_ok hgroups
    obtain ⟨rest, s₃, hrest, hgroups⟩ := run_bind_eq_ok hgroups
    cases hgroups
    have hg : ∀ c ∈ g, c.Renders := fun c hc => hgs c (by simp [hc])
    have hrest' : ∀ c ∈ rest.flatten, c.Renders := fun c hc => hgs c (List.mem_append_right g hc)
    unfold stepLines
    rw [run_bind, run_written hfirst hg]
    dsimp only
    rw [run_bind, run_stepLines_broken hstep (Nat.lt_of_succ_lt_succ hi) hrest hrest']

/-- **A script is the lines of what was made,** or fails as the part that broke it off. -/
theorem Makes.run_script (h : Makes n s made fault s') (hvalue : s.setting.stepCount value = .ok n)
    (hmade : ∀ c ∈ made, c.Renders) : (script value).run s = (outcome made fault, s') := by
  cases h with
  | unopened hstart =>
    unfold script
    rw [run_get_bind, run_bind, run_liftM, hvalue]
    dsimp only
    rw [run_bind, run_written_eq, hstart]
    rfl
  | broken hi hstart hgroups hfail =>
    have hopening := run_written hstart fun c hc => hmade c (List.mem_append_left _ hc)
    have hlines := run_stepLines_broken hfail hi hgroups fun c hc =>
      hmade c (List.mem_append_right _ hc)
    unfold script
    rw [run_get_bind, run_bind, run_liftM, hvalue]
    dsimp only
    rw [run_bind, hopening]
    dsimp only
    rw [run_bind, hlines]
    rfl
  | whole hstart hgroups hclosing =>
    rw [Session.run_script hvalue hstart hgroups hclosing hmade]
    cases excess n <;> rfl

/-! ### The script of a session -/

/-- The parts of the script of `n` steps that a session generates: its stream gives out their
commands, and their lines are what it writes in one go, if it writes anything. -/
structure Generates (s : Session σ) (n : Nat) (opening : List Command) (ts : List Step)
    (closing : List Command) : Prop where
  parts : s.setting.ScriptParts n opening ts closing
  gives : (Stream.ready n).Gives s (opening ++ ((ts.map Step.commands).flatten ++ closing))
    (excess n)
  writes : ∀ value lines s', StepCount.Accepts value n → (script value).run s = (.ok lines, s') →
    lines = (opening ++ ((ts.map Step.commands).flatten ++ closing)).map Command.text

/-- What is taken from the stream is how the script begins. -/
theorem Generates.take_eq {ts : List Step} {k : Nat} {ps : List Phrase}
    (h : s.Generates n opening ts closing)
    (hrun : ((Stream.ready n).take k s).1.1.map (List.map Command.phrase) = .ok ps) :
    ((opening ++ ((ts.map Step.commands).flatten ++ closing)).take k).map Command.phrase = ps :=
  h.gives.phrases_eq hrun

/-- **Every session generates a script,** whatever it remembers and whatever is drawn, if no text
spans lines and there is content for the steps. -/
theorem exists_generates (hd : s.setting.document.Unbroken)
    (ht : Glyph.newline ∉ s.setting.target)
    (hn : n = 0 ∨ s.setting.document.hasContent = true) :
    ∃ opening ts closing, s.Generates n opening ts closing := by
  obtain ⟨opening, ts, closing, s₁, s₂, hstart, hgroups, hclosing, hparts⟩ := exists_parts hd ht hn
  have hgives := Stream.gives_ready hstart hgroups hclosing
  rw [of_summary_eq_of_start hstart hgroups] at hgives
  refine ⟨opening, ts, closing, hparts, hgives, fun value lines s' hvalue hscript => ?_⟩
  obtain ⟨n', opening', gs', closing', s₁', hcount, hstart', hgroups', hclosing', rfl, -⟩ :=
    exists_of_run_script hscript
  have haccepts : StepCount.Accepts value n' := (Setting.stepCount_eq_ok_iff.1 hcount).1
  rw [← StepCount.ofLiteral_eq_ok_iff] at hvalue haccepts
  obtain rfl : n' = n := Except.ok.inj (haccepts.symm.trans hvalue)
  -- the parts run one after the other, and each run has one outcome
  cases hstart.symm.trans hstart'
  cases hgroups.symm.trans hgroups'
  cases hclosing.symm.trans hclosing'
  rfl

end Session
end UndoScript

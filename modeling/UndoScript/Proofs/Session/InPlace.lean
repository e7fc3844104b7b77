/-
# A step that fails changes nothing

A step reaches its memory and its tally only after its commands are made, so
one that fails leaves both as they were. That could be otherwise for a step
that works in place: the turn of selecting and pasting writes what is
remembered before it makes its command. It is the same step all the same,
whatever is remembered, since a turn that has got so far does not fail. What
does fail is an action that takes text from a document which has none, or
which has a line feed inside a line.

Key definitions: `Session.turnInPlace`, `Session.stepInPlace`.
Key theorems: `Session.run_turnInPlace`, `Session.run_stepInPlace`,
`Session.failing_step_changes_nothing`.
-/
import UndoScript.Proofs.Session.Course

namespace UndoScript

open Sampler

/-- Only the clipboard's turn changes what is remembered. -/
theorem Action.memory_eq_of_yields {s : Setting} {m m' : Memory} {a : Action} {cs : List Command}
    (ha : a ≠ .clipboard) (h : (a.perform s m).Yields (cs, m')) : m' = m := by
  cases a with
  | clipboard => exact absurd rfl ha
  | _ =>
    simp only [perform, yields_bind, yields_pure, Prod.mk.injEq] at h
    grind

namespace Session

variable {σ : Type} [Source σ]

/-! ### Working in place -/

/-- What is remembered from now on, unless it cannot be. -/
def remember (remembered : Except Fault Memory) : SessionM σ Unit := do
  let memory ← liftM remembered
  modify fun s => { s with memory }

/-- The clipboard's turn, which writes what is remembered before it makes its command. Of the four
ways to close a selection, the first two fill the clipboard. -/
def turnInPlace : SessionM σ (List Command) := do
  let choice ← sample fun _ _ => Sampler.draw 4
  let m := (← get).memory
  if m.selecting then
    remember (m.closeSelection (choice.val < 2))
    if choice.val = 0 then return [.plain .copy]
    else if choice.val = 1 then return [.plain .cut]
    else if choice.val = 2 then return [.plain .erase]
    else return [← liftM (Command.token .through "sort")]
  else if 1 < choice.val then
    return []
  else if m.clipboardFull then
    remember m.paste
    return [.plain (if choice.val = 0 then .paste else .pasteVert)]
  else
    remember m.openSelection
    return [.plain (if choice.val = 0 then .mark else .markVert)]

/-- One action, which writes what is remembered only if it is the clipboard's turn. -/
def actInPlace : Action → SessionM σ (List Command)
  | .clipboard => turnInPlace
  | a => do
    let (commands, _) ← sample fun setting memory => a.perform setting memory
    return commands

/-- One step, which draws, writes and counts as it goes along. -/
def stepInPlace : SessionM σ (List Command) := do
  let r ← sample fun _ _ => Sampler.draw 100
  let category ← liftM (Category.ofDraw r.val)
  let action ← sample fun setting _ => Sampler.choose (Action.table setting.options category)
  let commands ← actInPlace action
  if category.mutates then
    modify fun s => { s with memory := s.memory.changed }
  modify fun s => { s with tally := s.tally.bump category }
  return commands

/-- **The clipboard's turn in place is its turn.** -/
theorem run_turnInPlace (s : Session σ) : turnInPlace.run s = (act .clipboard).run s := by
  obtain ⟨setting, ⟨selecting, clipboardFull, mutations⟩, tally, source⟩ := s
  unfold turnInPlace
  rw [run_act, run_bind, run_sample]
  unfold Action.perform Action.clipboardTurn
  rw [Sampler.run_bind]
  rcases (Sampler.draw 4).run source with ⟨f | choice, source⟩
  · rfl
  · -- the memory allows what the turn asks of it, and the word of THROUGH is sturdy
    cases selecting with
    | true =>
      match choice with
      | 0 | 1 | 2 | 3 => rfl
    | false =>
      cases clipboardFull <;>
        match choice with
        | 0 | 1 | 2 | 3 => rfl

/-- An action in place is the action. -/
theorem run_actInPlace (a : Action) (s : Session σ) : (actInPlace a).run s = (act a).run s := by
  by_cases ha : a = .clipboard
  · rw [ha]
    exact run_turnInPlace s
  · -- any other action remembers what was remembered, so not to write it is the same
    have hact : actInPlace a = (do
        let (commands, _) ← sample fun setting memory => a.perform setting memory
        return commands : SessionM σ (List Command)) := by
      cases a with
      | clipboard => exact absurd rfl ha
      | _ => rfl
    rw [hact, run_act, run_bind, run_sample]
    rcases hrun : (a.perform s.setting s.memory).run s.source with ⟨f | ⟨cs, m⟩, source⟩
    · rfl
    · obtain rfl : m = s.memory := Action.memory_eq_of_yields ha (yields_of_run hrun)
      rfl

/-- **A step in place is a step.** -/
theorem run_stepInPlace (s : Session σ) : stepInPlace.run s = step.run s := by
  unfold stepInPlace
  rw [run_step, run_bind, run_sample]
  unfold Setting.step
  rw [Sampler.run_bind]
  rcases (Sampler.draw 100).run s.source with ⟨f | r, source⟩
  · rfl
  dsimp only
  rw [run_bind, run_liftM, Sampler.run_bind]
  cases hr : Category.ofDraw r.val with
  | error f => exact absurd hr (Category.ofDraw_ne_error r)
  | ok category =>
    have hlift : Sampler.run (liftM (Except.ok category : Except Fault Category)) source =
      (.ok category, source) := rfl
    rw [hlift]
    dsimp only
    rw [run_bind, run_sample, Sampler.run_bind]
    rcases (Sampler.choose (Action.table s.setting.options category)).run source with
      ⟨f | a, source⟩
    · rfl
    dsimp only
    rw [run_bind, run_actInPlace, run_act, Sampler.run_bind]
    rcases (a.perform s.setting s.memory).run source with ⟨f | ⟨cs, m⟩, source⟩
    · rfl
    · cases category <;> rfl

/-! ### Failing -/

/-- **A step that fails changes nothing but the source.** Whatever is remembered, as long as the
count is not negative, a step fails only for a document without content or for a line feed inside a
line, and says which; with content and no such line it does not fail. And a step that works in place
is no different. -/
theorem failing_step_changes_nothing {s : Session σ} (hm : 0 ≤ s.memory.mutations) :
    (∀ f s', step.run s = (.error f, s') → (∃ source, s' = { s with source }) ∧
      ((f = .documentEmpty ∧ s.setting.document.hasContent = false) ∨
        ∃ k, f = .broken (.spansLines k) ∧
          ∃ line ∈ s.setting.document.lines, Glyph.newline ∈ line.content)) ∧
    (s.setting.document.hasContent = true → s.setting.document.Unbroken →
      ∃ cs s', step.run s = (.ok cs, s')) ∧
    stepInPlace.run s = step.run s := by
  refine ⟨fun f s' h => ?_, fun hcontent hd => exists_run_step hm hd hcontent, run_stepInPlace s⟩
  obtain ⟨hsource, hblames⟩ := (takes_of_run_step h).blames hm
  obtain ⟨hempty, rfl⟩ | ⟨⟨k, rfl⟩, t, ⟨-, line, hline, rfl⟩, hmem⟩ := hblames
  · exact ⟨hsource, .inl ⟨rfl, hempty⟩⟩
  · exact ⟨hsource, .inr ⟨k, rfl, line, hline, hmem⟩⟩

/-- A replacement fails on a broken line after its search was made, and nothing has changed. -/
theorem failing_step_changes_nothing_after_search :
    0 ≤ (⟨true, true, 3⟩ : Memory).mutations ∧ ∃ source : Tape,
      step.run ⟨⟨.ofLines ["a\nbcd"], "a.c", .standard⟩, ⟨true, true, 3⟩, .zero,
          (⟨[40, 2, 0, 0, 0, 0, 0, 0, 1], []⟩ : Tape)⟩ =
        (.error (.broken (.spansLines .replaceAll)),
          ⟨⟨.ofLines ["a\nbcd"], "a.c", .standard⟩, ⟨true, true, 3⟩, .zero, source⟩) := by
  have hm : 0 ≤ (⟨true, true, 3⟩ : Memory).mutations := by decide
  have hfault : (step.run ⟨⟨.ofLines ["a\nbcd"], "a.c", .standard⟩, ⟨true, true, 3⟩, .zero,
      (⟨[40, 2, 0, 0, 0, 0, 0, 0, 1], []⟩ : Tape)⟩).1 =
        .error (.broken (.spansLines .replaceAll)) := rfl
  obtain ⟨⟨source, hsource⟩, -⟩ := (failing_step_changes_nothing hm).1 _ _ (Prod.ext hfault rfl)
  exact ⟨hm, source, Prod.ext hfault hsource⟩

end Session
end UndoScript

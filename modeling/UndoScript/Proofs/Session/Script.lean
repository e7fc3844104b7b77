/-
# The lines of a script

A script written in one go is the lines of its parts, one part after the
other, if all their commands can be written and the script can be summed up. If
not, there is no script, and neither is there one for a target with a line
feed.

Key theorems: `Session.run_stepLines`, `Session.run_script`,
`Session.exists_of_run_script`, `Session.run_script_error`.
-/
import UndoScript.Proofs.Command.RoundTrip
import UndoScript.Proofs.Session.Run

namespace UndoScript
namespace Session

variable {σ : Type} {s s₁ s₂ s₃ : Session σ} {cs opening closing : List Command}
  {gs : List (List Command)} {n : Nat} {value : Literal}

theorem run_written_eq (part : SessionM σ (List Command)) (s : Session σ) :
    (written part).run s = match part.run s with
      | (.ok cs, s) => (Command.renderAll cs, s)
      | (.error f, s) => (.error f, s) := by
  unfold written
  rw [run_bind]
  rcases part.run s with ⟨f | cs, s₁⟩
  · rfl
  · exact run_liftM _ s₁

theorem run_written {part : SessionM σ (List Command)} (hpart : part.run s = (.ok cs, s₁))
    (hcs : ∀ c ∈ cs, c.Renders) : (written part).run s = (.ok (cs.map Command.text), s₁) := by
  rw [run_written_eq, hpart]
  dsimp only
  rw [Command.renderAll_eq, if_pos hcs]

theorem run_written_error {part : SessionM σ (List Command)} (hpart : part.run s = (.ok cs, s₁))
    (hcs : ¬ ∀ c ∈ cs, c.Renders) : (written part).run s = (.error .numberTooLarge, s₁) := by
  rw [run_written_eq, hpart]
  dsimp only
  rw [Command.renderAll_eq, if_neg hcs]

/-- Lines that were written are those of commands that all can be. -/
theorem exists_of_run_written {part : SessionM σ (List Command)} {lines : List Text}
    (h : (written part).run s = (.ok lines, s₁)) : ∃ cs, part.run s = (.ok cs, s₁) ∧
      lines = cs.map Command.text ∧ ∀ c ∈ cs, c.Renders := by
  rw [run_written_eq] at h
  rcases hpart : part.run s with ⟨f | cs, s₂⟩
  · rw [hpart] at h
    cases h
  · rw [hpart] at h
    dsimp only at h
    rw [Command.renderAll_eq] at h
    split at h
    case isTrue hcs =>
      cases h
      exact ⟨cs, rfl, rfl, hcs⟩
    case isFalse => cases h

variable [Source σ]

/-- The lines of steps are the lines of their groups. -/
theorem run_stepLines : ∀ {n : Nat} {s : Session σ} {gs : List (List Command)},
    (groups n).run s = (.ok gs, s₁) → (∀ c ∈ gs.flatten, c.Renders) →
    (stepLines n).run s = (.ok (gs.map (List.map Command.text)), s₁)
  | 0, s, gs, hgroups, _ => by
    cases hgroups
    rfl
  | n + 1, s, gs, hgroups, hgs => by
    obtain ⟨g, s₂, hstep, hgroups⟩ := run_bind_eq_ok hgroups
    obtain ⟨rest, s₃, hrest, hgroups⟩ := run_bind_eq_ok hgroups
    cases hgroups
    have hg : ∀ c ∈ g, c.Renders := fun c hc => hgs c (by simp [hc])
    have hrest' : ∀ c ∈ rest.flatten, c.Renders := fun c hc =>
      hgs c (List.mem_append_right g hc)
    unfold stepLines
    rw [run_bind, run_written hstep hg]
    dsimp only
    rw [run_bind, run_stepLines hrest hrest']
    rfl

/-- **A script is the lines of its parts,** unless it has too many steps to be summed up. -/
theorem run_script (hvalue : s.setting.stepCount value = .ok n)
    (hstart : start.run s = (.ok opening, s₁)) (hgroups : (groups n).run s₁ = (.ok gs, s₂))
    (hclosing : Session.closing.run s₂ = (.ok closing, s₃))
    (hcs : ∀ c ∈ opening ++ (gs.flatten ++ closing), c.Renders) :
    (script value).run s =
      (Fault.unless (excess n) ((opening ++ (gs.flatten ++ closing)).map Command.text), s₃) := by
  have hsummary := of_summary_eq_of_start hstart hgroups
  obtain rfl : s₂ = s₃ := by
    rw [run_closing] at hclosing
    exact congrArg Prod.snd hclosing
  simp only [List.mem_append] at hcs
  have hopening' : ∀ c ∈ opening, c.Renders := fun c hc => hcs c (.inl hc)
  have hgs : ∀ c ∈ gs.flatten, c.Renders := fun c hc => hcs c (.inr (.inl hc))
  have hclosing' : ∀ c ∈ closing, c.Renders := fun c hc => hcs c (.inr (.inr hc))
  unfold script
  rw [run_get_bind, run_bind, run_liftM, hvalue]
  dsimp only
  rw [run_bind, run_written hstart hopening']
  dsimp only
  rw [run_bind, run_stepLines hgroups hgs]
  dsimp only
  rw [run_bind, run_written hclosing hclosing']
  dsimp only
  rw [run_get_bind, run_bind, run_liftM, ← hsummary]
  cases s₂.summary n with
  | error f => rfl
  | ok note => simp [run_pure, List.map_flatten, Fault.of, Fault.unless]

/-- Lines of steps that were written are those of their groups. -/
theorem exists_of_run_stepLines : ∀ {n : Nat} {s : Session σ} {lines : List (List Text)},
    (stepLines n).run s = (.ok lines, s₁) → ∃ gs, (groups n).run s = (.ok gs, s₁) ∧
      lines = gs.map (List.map Command.text) ∧ ∀ c ∈ gs.flatten, c.Renders
  | 0, s, lines, h => by
    cases h
    exact ⟨[], rfl, rfl, nofun⟩
  | n + 1, s, lines, h => by
    obtain ⟨first, s₂, hfirst, h⟩ := run_bind_eq_ok h
    obtain ⟨others, s₃, hothers, h⟩ := run_bind_eq_ok h
    cases h
    obtain ⟨g, hstep, rfl, hg⟩ := exists_of_run_written hfirst
    obtain ⟨gs, hgroups, rfl, hgs⟩ := exists_of_run_stepLines hothers
    refine ⟨g :: gs, run_groups_succ hstep hgroups, rfl, fun c hc => ?_⟩
    rcases List.mem_append.1 hc with hc | hc
    · exact hg c hc
    · exact hgs c hc

/-- **A script that was written is the lines of its parts,** and all of them can be written. -/
theorem exists_of_run_script {lines : List Text} (h : (script value).run s = (.ok lines, s₂)) :
    ∃ n opening gs closing s₁, s.setting.stepCount value = .ok n ∧
      start.run s = (.ok opening, s₁) ∧ (groups n).run s₁ = (.ok gs, s₂) ∧
      Session.closing.run s₂ = (.ok closing, s₂) ∧
      lines = (opening ++ (gs.flatten ++ closing)).map Command.text ∧
      ∀ c ∈ opening ++ (gs.flatten ++ closing), c.Renders := by
  unfold script at h
  rw [run_get_bind] at h
  obtain ⟨n, s₃, hcount, h⟩ := run_bind_eq_ok h
  obtain ⟨first, s₁, hfirst, h⟩ := run_bind_eq_ok h
  obtain ⟨steps, s₄, hsteps, h⟩ := run_bind_eq_ok h
  obtain ⟨last, s₅, hlast, h⟩ := run_bind_eq_ok h
  rw [run_get_bind] at h
  obtain ⟨note, s₆, hsummary, h⟩ := run_bind_eq_ok h
  cases h
  rw [run_liftM] at hsummary
  obtain rfl : s₅ = s₂ := (Prod.mk.inj hsummary).2
  rw [run_liftM] at hcount
  obtain ⟨hvalue, rfl⟩ := Prod.mk.inj hcount
  obtain ⟨opening, hstart, rfl, hopening⟩ := exists_of_run_written hfirst
  obtain ⟨gs, hgroups, rfl, hgs⟩ := exists_of_run_stepLines hsteps
  obtain ⟨closing, hclosing, rfl, hclosing'⟩ := exists_of_run_written hlast
  obtain rfl : s₄ = s₅ := by
    rw [run_closing] at hclosing
    exact congrArg Prod.snd hclosing
  refine ⟨n, opening, gs, closing, s₁, hvalue, hstart, hgroups, hclosing, ?_, fun c hc => ?_⟩
  · simp [List.map_flatten]
  · simp only [List.mem_append] at hc
    rcases hc with hc | hc | hc
    · exact hopening c hc
    · exact hgs c hc
    · exact hclosing' c hc

/-! ### No script -/

/-- Steps with a command that cannot be written fail. -/
theorem run_stepLines_error : ∀ {n : Nat} {s : Session σ} {gs : List (List Command)},
    (groups n).run s = (.ok gs, s₁) → (¬ ∀ c ∈ gs.flatten, c.Renders) →
    ((stepLines n).run s).1 = .error .numberTooLarge
  | 0, s, gs, hgroups, hgs => by
    cases hgroups
    exact absurd (fun c hc => nomatch hc) hgs
  | n + 1, s, gs, hgroups, hgs => by
    obtain ⟨g, s₂, hstep, hgroups⟩ := run_bind_eq_ok hgroups
    obtain ⟨rest, s₃, hrest, hgroups⟩ := run_bind_eq_ok hgroups
    cases hgroups
    unfold stepLines
    by_cases hg : ∀ c ∈ g, c.Renders
    · have hrest' : ¬ ∀ c ∈ rest.flatten, c.Renders := fun h => hgs fun c hc =>
        (List.mem_append.1 hc).elim (hg c) (h c)
      have hlines := run_stepLines_error hrest hrest'
      rw [run_bind, run_written hstep hg]
      dsimp only
      rw [run_bind]
      rcases hrun : (stepLines n).run s₂ with ⟨f | lines, s₄⟩
      · rwa [hrun] at hlines
      · rw [hrun] at hlines
        cases hlines
    · rw [run_bind, run_written_error hstep hg]

/-- **A command that cannot be written leaves no script.** -/
theorem run_script_error (hvalue : s.setting.stepCount value = .ok n)
    (hstart : start.run s = (.ok opening, s₁)) (hgroups : (groups n).run s₁ = (.ok gs, s₂))
    (hclosing : Session.closing.run s₂ = (.ok closing, s₃))
    (hcs : ¬ ∀ c ∈ opening ++ (gs.flatten ++ closing), c.Renders) :
    ((script value).run s).1 = .error .numberTooLarge := by
  unfold script
  rw [run_get_bind, run_bind, run_liftM, hvalue]
  dsimp only
  rw [run_bind]
  by_cases ho : ∀ c ∈ opening, c.Renders
  · rw [run_written hstart ho]
    dsimp only
    rw [run_bind]
    by_cases hg : ∀ c ∈ gs.flatten, c.Renders
    · have hc : ¬ ∀ c ∈ closing, c.Renders := fun h => hcs fun c hc => by
        simp only [List.mem_append] at hc
        exact hc.elim (ho c) (Or.elim · (hg c) (h c))
      rw [run_stepLines hgroups hg]
      dsimp only
      rw [run_bind, run_written_error hclosing hc]
    · have hlines := run_stepLines_error hgroups hg
      rcases hrun : (stepLines n).run s₁ with ⟨f | lines, s₄⟩
      · rw [hrun] at hlines
        cases hlines
        rfl
      · rw [hrun] at hlines
        cases hlines
  · rw [run_written_error hstart ho]

/-- A value that is refused leaves no script. -/
theorem run_script_of_stepCount_error {f : Fault} (hvalue : s.setting.stepCount value = .error f) :
    (script value).run s = (.error f, s) := by
  unfold script
  rw [run_get_bind, run_bind, run_liftM, hvalue]

/-- A target with a line feed leaves no script. -/
theorem run_script_of_newline_mem (hvalue : s.setting.stepCount value = .ok n)
    (ht : Glyph.newline ∈ s.setting.target) :
    ((script value).run s).1 = .error (.broken (.spansLines .openFile)) := by
  obtain ⟨source, hstart⟩ := run_start_of_newline_mem ht
  unfold script
  rw [run_get_bind, run_bind, run_liftM, hvalue]
  dsimp only
  rw [run_bind, run_written_eq, hstart]

end Session
end UndoScript

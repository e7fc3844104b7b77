/-
# Every walk is a run

A session with a tape goes wherever a walk goes: there are draws that lead it
through the steps of the walk, and draws that open the script with UTF-8 off
or on. So every whole script of a setting is what a session with some tape
comes to, whatever the session remembers.

Key theorems: `Setting.exists_opening`, `Session.exists_draws_of_walk`,
`Session.exists_draws_of_parts`.
-/
import UndoScript.Proofs.Session.Run

namespace UndoScript

open Sampler

/-- The opening comes to either choice of UTF-8. -/
theorem Setting.exists_opening {s : Setting} (ht : Glyph.newline ∉ s.target) {utf8 : Nat}
    (hutf8 : utf8 < 2) :
    ∃ cs, s.opening.Yields cs ∧ cs.map Command.phrase = s.openingPhrases utf8 := by
  have hmake {k : Keyword} {a : Argument} (h : a.Fits k) :
      ∃ c, Command.make k a = .ok c ∧ c.phrase = (k, a) := ⟨_, Command.make_of_fits h, rfl⟩
  obtain ⟨openFile, hopen, hopen'⟩ := hmake (k := .openFile) (a := .quoted s.target) ⟨rfl, ht⟩
  obtain ⟨turbo, hturbo, hturbo'⟩ := hmake (k := .turbo) (a := .number s.options.turbo) rfl
  obtain ⟨brackets, hbrackets, hbrackets'⟩ := hmake (k := .autoMatchBracket) (a := .number 1) rfl
  obtain ⟨flag, hflag, hflag'⟩ := hmake (k := .utf8) (a := .number utf8) rfl
  unfold opening openingPhrases
  by_cases hb : s.options.binary
  · refine ⟨[.plain .binary, openFile, turbo], ?_, by simp [hb, hopen', hturbo']⟩
    simp [hb, Command.string, Command.number, hopen, hturbo]
  · refine ⟨[openFile, turbo] ++ (if s.options.matchBrackets then [brackets] else []) ++
      (if s.options.toggleUtf8 then [flag] else []), ?_, ?_⟩
    · rw [yields_bind]
      refine ⟨openFile, yields_liftM.2 hopen, yields_bind.2 ⟨turbo, yields_liftM.2 hturbo, ?_⟩⟩
      rw [if_neg hb]
      cases s.options.matchBrackets <;> cases s.options.toggleUtf8 <;>
        simp only [if_true, Bool.false_eq_true, if_false, yields_bind, yields_liftM,
          yields_drawFrom, yields_pure]
      · exact ⟨_, rfl, _, rfl, rfl⟩
      · exact ⟨_, rfl, utf8, ⟨Nat.zero_le utf8, hutf8⟩, flag, hflag, _, rfl, rfl⟩
      · exact ⟨brackets, hbrackets, _, rfl, _, rfl, rfl⟩
      · exact ⟨brackets, hbrackets, _, rfl,
          utf8, ⟨Nat.zero_le utf8, hutf8⟩, flag, hflag, _, rfl, rfl⟩
    · cases s.options.matchBrackets <;> cases s.options.toggleUtf8 <;>
        simp [hb, hopen', hturbo', hbrackets', hflag']

namespace Session

variable {s : Setting} {m m' : Memory} {ts : List Step} {opening closing : List Command}

/-- A step that can be taken is taken with some draws. -/
theorem exists_draws_of_step {t : Step} (h : (s.step m).Yields t) : ∃ draws : List Nat,
    ∀ tally rest asked, ∃ asked',
      step.run (⟨s, m, tally, ⟨draws ++ rest, asked⟩⟩ : Session Tape) =
        (.ok t.commands, ⟨s, t.memory, tally.bump t.category, ⟨rest, asked'⟩⟩) := by
  obtain ⟨draws, hdraws⟩ := exists_draws_of_yields h
  refine ⟨draws, fun tally rest asked => ?_⟩
  obtain ⟨asked', hrun⟩ := hdraws rest asked
  refine ⟨asked', ?_⟩
  rw [run_step]
  dsimp only
  rw [hrun]

/-- **Every walk is a run.** Some draws lead a session through its steps. -/
theorem exists_draws_of_walk (h : s.Walk m ts m') : ∃ draws : List Nat,
    ∀ tally rest asked, ∃ tally' asked',
      (groups ts.length).run (⟨s, m, tally, ⟨draws ++ rest, asked⟩⟩ : Session Tape) =
        (.ok (ts.map Step.commands), ⟨s, m', tally', ⟨rest, asked'⟩⟩) := by
  induction h with
  | rest m => exact ⟨[], fun tally rest asked => ⟨tally, asked, rfl⟩⟩
  | @step m m' t ts hstep _ ih =>
    obtain ⟨first, hfirst⟩ := exists_draws_of_step hstep
    obtain ⟨others, hothers⟩ := ih
    refine ⟨first ++ others, fun tally rest asked => ?_⟩
    obtain ⟨asked₁, hrun⟩ := hfirst tally (others ++ rest) asked
    obtain ⟨tally', asked', hruns⟩ := hothers (tally.bump t.category) rest asked₁
    rw [List.append_assoc]
    exact ⟨tally', asked', run_groups_succ hrun hruns⟩

/-- An opening that can be made is made with some draws, and forgets what was before. -/
theorem exists_draws_of_opening (h : s.opening.Yields opening) : ∃ draws : List Nat,
    ∀ m tally rest asked, ∃ asked',
      start.run (⟨s, m, tally, ⟨draws ++ rest, asked⟩⟩ : Session Tape) =
        (.ok opening, ⟨s, .fresh, .zero, ⟨rest, asked'⟩⟩) := by
  obtain ⟨draws, hdraws⟩ := exists_draws_of_yields h
  refine ⟨draws, fun m tally rest asked => ?_⟩
  obtain ⟨asked', hrun⟩ := hdraws rest asked
  refine ⟨asked', ?_⟩
  rw [run_start]
  dsimp only
  rw [hrun]

/-- **Every whole script can be drawn.** Some draws lead a session, whatever it remembers, through
an opening, the steps of a walk from a fresh start, and the closing. -/
theorem exists_draws_of_parts (hopening : s.opening.Yields opening) (hwalk : s.Walk .fresh ts m')
    (hclosing : s.closing = .ok closing) (m : Memory) (tally : Tally) :
    ∃ (draws : List Nat) (s₁ s₂ : Session Tape),
      start.run ⟨s, m, tally, ⟨draws, []⟩⟩ = (.ok opening, s₁) ∧
      (groups ts.length).run s₁ = (.ok (ts.map Step.commands), s₂) ∧
      Session.closing.run s₂ = (.ok closing, s₂) := by
  obtain ⟨first, hfirst⟩ := exists_draws_of_opening hopening
  obtain ⟨others, hothers⟩ := exists_draws_of_walk hwalk
  obtain ⟨asked₁, hstart⟩ := hfirst m tally (others ++ []) []
  obtain ⟨tally', asked', hgroups⟩ := hothers .zero [] asked₁
  refine ⟨first ++ (others ++ []), _, _, hstart, hgroups, ?_⟩
  rw [run_closing, hclosing]

end Session
end UndoScript

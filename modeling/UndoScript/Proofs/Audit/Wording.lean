/-
# Problems in words

A problem is about a command, about arguments or keywords, or about a line. Its
words name what it is about, and so it can be put in words unless a number in it
is too large to be written. The numbers that were read from a script never are,
and commands that can be written have problems that can be told.

Key definitions: `Problem.command?`.
Key theorems: `Problem.isPrefix_message`, `Audit.renders_of_mem_problems`,
`Audit.exists_problems`.
-/
import UndoScript.Proofs.Audit.Shape

namespace UndoScript

theorem Command.renders_operand (c : Command) : c.argument.operand.Renders ↔ c.Renders := by
  unfold Renders
  cases c.argument <;> rfl

/-- A keyword that takes a text has no number that is too large. -/
theorem Command.renders_of_string {c : Command} (h : c.keyword.kind = .string) : c.Renders := by
  have hfits := c.fits
  unfold Renders
  cases hargument : c.argument with
  | number n =>
    rw [hargument] at hfits
    cases h.symm.trans hfits
  | _ => trivial

namespace Problem

/-- The command that a problem is about. -/
def command? : Problem → Option Command
  | .stillSelecting c | .neverPasted c | .noSelection c | .nothingCopied c | .pastedInSelection c
  | .unquoted c | .notFound c => some c
  | _ => none

variable {p : Problem} {c : Command}

theorem renders_of_command? (h : p.command? = some c) (hc : c.Renders) : p.Renders := by
  cases p <;> cases h <;> exact hc

/-- **A problem with a command is put in words that start with the command.** -/
theorem isPrefix_message (h : p.command? = some c) : c.text ++ Text.ofString ": " <+: p.message := by
  have hstarts {words : String} (hwords : Text.ofString ": " <+: Text.ofString words) :
      c.text ++ Text.ofString ": " <+: c.text ++ Text.ofString words :=
    (List.prefix_append_right_inj c.text).2 hwords
  cases p <;> cases h <;> exact hstarts (by decide)

end Problem

/-! ### The problems of a check -/

namespace ClipboardNotes

variable {n : ClipboardNotes} {p : Problem}

theorem command?_of_mem_problems {c : Command} (h : p ∈ n.problems c) : p.command? = some c := by
  unfold problems at h
  grind [Problem.command?]

/-- A problem with the clipboard is about one of the commands. -/
theorem exists_command_of_mem : ∀ {n : ClipboardNotes} {cs : List Command},
    p ∈ n.allProblems cs → ∃ c ∈ cs, p.command? = some c
  | n, c :: cs, h => by
    rcases List.mem_append.1 h with h | h
    · exact ⟨c, List.mem_cons_self, command?_of_mem_problems h⟩
    · obtain ⟨d, hd, hp⟩ := exists_command_of_mem h
      exact ⟨d, List.mem_cons_of_mem c hd, hp⟩

end ClipboardNotes

namespace Audit

variable {cs : List Command} {document : Document} {target : Option Text} {p : Problem}

theorem command?_of_mem_sample {c : Command} (h : p ∈ sample document c) : p.command? = some c := by
  unfold sample at h
  grind [Problem.command?]

/-- The texts that should come from the document can always be told. -/
theorem renders_of_mem_sampled (h : p ∈ sampled cs document) : p.Renders := by
  obtain ⟨c, -, hp⟩ := List.mem_flatMap.1 h
  have hsamples : ∀ k ∈ samplers, k.kind = .string := by decide
  have hstring : c.keyword.kind = .string := by
    refine hsamples _ ((takesSample_iff _).1 ?_)
    by_contra hno
    unfold sample at hp
    rw [if_neg hno] at hp
    cases hp
  exact Problem.renders_of_command? (command?_of_mem_sample hp) (Command.renders_of_string hstring)

theorem renders_of_mem_openingOf {names : List Keyword} (h : p ∈ openingOf cs names target) :
    p.Renders := by
  unfold openingOf at h
  split at h
  · obtain rfl := List.mem_singleton.1 h
    trivial
  · split at h
    · next t c hfind =>
      split at h
      · cases h
      · obtain rfl := List.mem_singleton.1 h
        have hopens : c.keyword = .openFile := by simpa using List.find?_some hfind
        exact c.renders_operand.2 (Command.renders_of_string (by rw [hopens]; rfl))
    · cases h

/-- What is wrong with an opening can always be told. -/
theorem renders_of_mem_opening (h : p ∈ opening cs target) : p.Renders := by
  unfold opening at h
  split at h
  · split at h
    · obtain rfl := List.mem_singleton.1 h
      trivial
    · exact renders_of_mem_openingOf h
  · exact renders_of_mem_openingOf h

theorem renders_of_mem_depths {undo redo : Command} (hundo : undo.Renders) (hredo : redo.Renders)
    (h : p ∈ depths undo redo) : p.Renders := by
  unfold depths at h
  split at h
  · obtain rfl := List.mem_singleton.1 h
    exact ⟨undo.renders_operand.2 hundo, redo.renders_operand.2 hredo⟩
  · cases h

theorem renders_of_mem_saved {c : Command} {base : Text} {ending : String} (hc : c.Renders)
    (h : p ∈ saved c base ending) : p.Renders := by
  unfold saved at h
  split at h
  · cases h
  · obtain rfl := List.mem_singleton.1 h
    exact c.renders_operand.2 hc

/-- What is wrong with a closing can be told if its commands can be written. -/
theorem renders_of_mem_closing (hcs : ∀ c ∈ cs, c.Renders) (h : p ∈ closingProblems cs target) :
    p.Renders := by
  unfold closingProblems at h
  split at h
  · obtain rfl := List.mem_singleton.1 h
    trivial
  · split at h
    · next test undo undone redo redone _ _ =>
      have htest := hcs test (by simp)
      have hundo := hcs undo (by simp)
      have hundone := hcs undone (by simp)
      have hredo := hcs redo (by simp)
      have hredone := hcs redone (by simp)
      simp only [List.mem_append] at h
      rcases h with ((h | h) | h) | h
      · exact renders_of_mem_depths hundo hredo h
      · exact renders_of_mem_saved htest h
      · exact renders_of_mem_saved hundone h
      · exact renders_of_mem_saved hredone h
    · cases h

/-- **All problems that are found can be put in words.** -/
theorem renders_of_mem_problems {found : List Problem}
    (h : problems cs document target = .ok found) (hp : p ∈ found) : p.Renders := by
  obtain ⟨ps, qs, hclipboard, hclosing, rfl⟩ := problems_eq_ok_iff.1 h
  obtain ⟨rfl, hps⟩ := Problem.report_eq_ok_iff.1 hclipboard
  obtain ⟨rfl, hqs⟩ := Problem.report_eq_ok_iff.1 hclosing
  simp only [List.mem_append] at hp
  rcases hp with ((hp | hp) | hp) | hp
  · exact renders_of_mem_opening hp
  · exact hps p hp
  · exact renders_of_mem_sampled hp
  · exact hqs p hp

/-- **Commands that can be written have problems that can be told.** -/
theorem exists_problems (hcs : ∀ c ∈ cs, c.Renders) :
    ∃ found, problems cs document target = .ok found := by
  have hparts : ∀ c ∈ (parts cs).opening ++ ((parts cs).steps ++ (parts cs).closing),
      c.Renders := by rwa [append_parts]
  simp only [List.forall_mem_append] at hparts
  obtain ⟨-, hsteps, hclosing⟩ := hparts
  have hclipboard : ∀ p ∈ ClipboardNotes.allProblems {} (parts cs).steps, p.Renders := by
    intro p hp
    obtain ⟨c, hc, hcommand⟩ := ClipboardNotes.exists_command_of_mem hp
    exact Problem.renders_of_command? hcommand (hsteps c hc)
  exact ⟨_, problems_eq_ok_iff.2 ⟨_, _, Problem.report_eq_ok_iff.2 ⟨rfl, hclipboard⟩,
    Problem.report_eq_ok_iff.2 ⟨rfl, fun p hp => renders_of_mem_closing hclosing hp⟩, rfl⟩⟩

end Audit
end UndoScript

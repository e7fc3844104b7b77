/-
# Which scripts pass their check

A check has an answer for every script whose numbers can be read, and finds no
problem with it exactly if all its lines are commands and these are an opening,
steps and a closing, each as it should be. No script that is broken in any of
these ways passes, and none that is sound is turned away.

Key definitions: `Audit.Passes`.
Key theorems: `Audit.problems_eq_nil_iff`, `Audit.passes_iff`.
-/
import UndoScript.Proofs.Audit.Rounds
import UndoScript.Proofs.Audit.Wording
import UndoScript.Proofs.Command.Legible
import UndoScript.Proofs.Command.Refusal

namespace UndoScript
namespace Audit

/-- The three parts of a script that is sound, for a document and perhaps a target. -/
structure Passes (document : Document) (target : Option Text)
    (opening steps closing : List Command) : Prop where
  /-- The opening has no other keywords than those that may open a script, -/
  opens : ∀ c ∈ opening, c.keyword ∈ openers
  /-- and is as long as can be. -/
  longest : ∀ c, (steps ++ closing).head? = some c → c.keyword ∉ openers
  begins : IsOpening (keywords opening)
  opensTarget : ∀ t ∈ target, Opens opening t
  ends : IsClosing target closing
  samples : ∀ c ∈ steps, c.keyword ∈ samplers → document.Samples c.argument
  /-- The clipboard's history goes in rounds, and may stop anywhere. -/
  clipboard : ∃ w ∈ Clipboard.rounds, Clipboard.history steps <+: w

variable {opening steps closing cs : List Command} {target : Option Text} {document : Document}

theorem Passes.parts_eq (h : Passes document target opening steps closing) :
    parts (opening ++ (steps ++ closing)) = ⟨opening, steps, closing⟩ := by
  refine parts_append (fun c hc => (opens_iff _).2 (h.opens c hc)) (fun c hc => ?_)
    (length_of_isClosing h.ends)
  exact Bool.eq_false_iff.2 (mt (opens_iff _).1 (h.longest c hc))

/-- **Commands have no problem exactly if they are three sound parts.** -/
theorem problems_eq_nil_iff : problems cs document target = .ok [] ↔ ∃ opening steps closing,
    cs = opening ++ (steps ++ closing) ∧ Passes document target opening steps closing := by
  rw [problems_eq_ok_iff]
  constructor
  · rintro ⟨ps, qs, hclipboard, hends, hnone⟩
    simp only [List.nil_eq, List.append_eq_nil_iff, opening_eq_nil_iff, sampled_eq_nil_iff] at hnone
    obtain ⟨⟨⟨⟨hbegins, htarget⟩, rfl⟩, hsamples⟩, rfl⟩ := hnone
    rw [clipboard_eq_nil_iff] at hclipboard
    rw [closing_eq_nil_iff] at hends
    refine ⟨_, _, _, (append_parts cs).symm, ?_, ?_, hbegins, htarget, hends, hsamples, hclipboard⟩
    · exact fun c hc => (opens_iff _).1 (opens_of_mem_opening hc)
    · exact fun c hc => mt (opens_iff _).2 (Bool.eq_false_iff.1 (not_opens_of_head? hc))
  · rintro ⟨opening, steps, closing, rfl, h⟩
    rw [h.parts_eq]
    refine ⟨[], [], clipboard_eq_nil_iff.2 h.clipboard, closing_eq_nil_iff.2 h.ends, ?_⟩
    dsimp only
    rw [opening_eq_nil_iff.2 ⟨h.begins, h.opensTarget⟩, sampled_eq_nil_iff.2 h.samples]
    rfl

variable {script : Text}

theorem check_eq_nil_iff : check script document target = .ok [] ↔
    ∃ cs, Script.parse script = .ok cs ∧ problems cs document target = .ok [] := by
  unfold check
  split
  · next cs hcs => simp [hcs]
  · next hcs => simp [hcs]
  · next hcs => simp [hcs]

/-- A check has an answer if the numbers can be read. -/
theorem exists_check (h : Script.NumeralsFit script) :
    ∃ found, check script document target = .ok found := by
  unfold check
  cases hcs : Script.parse script with
  | ok cs => exact exists_problems fun c hc => (Script.legible_of_mem hcs hc).2
  | error f =>
    obtain ⟨lineno, line, why, rfl⟩ := Script.refusal_of_parse hcs h
    exact ⟨_, rfl⟩

/-- **Which scripts pass their check.** A script in which no number is too long gets an answer, for
any document and any target or none. The answer is that there is no problem exactly if every line
that is not blank is a command, and the commands are an opening, as long as can be, steps and a
closing: the opening starts as it should and opens the target, the closing undoes as much as it
redoes and saves under three names with one base, every text that must come from the document does,
and the clipboard's history in the steps can go on to be rounds. -/
theorem passes_iff (hfit : Script.NumeralsFit script) :
    (∃ found, check script document target = .ok found) ∧
    (check script document target = .ok [] ↔ ∃ opening steps closing,
      Script.parse script = .ok (opening ++ (steps ++ closing)) ∧
        Passes document target opening steps closing) := by
  refine ⟨exists_check hfit, check_eq_nil_iff.trans ⟨?_, ?_⟩⟩
  · rintro ⟨cs, hcs, hproblems⟩
    obtain ⟨opening, steps, closing, rfl, h⟩ := problems_eq_nil_iff.1 hproblems
    exact ⟨opening, steps, closing, hcs, h⟩
  · rintro ⟨opening, steps, closing, hcs, h⟩
    exact ⟨_, hcs, problems_eq_nil_iff.2 ⟨opening, steps, closing, rfl, h⟩⟩

/-- A binary document, and two rounds after a selection that is dropped. -/
theorem passes_two_rounds :
    let script := Text.ofLines ["BINARY", "OPEN \"a\"", "TURBO 1", "MARK", "ERASE", "MARK", "COPY",
      "FIND \"bc\"", "PASTE", "MARKVERT", "CUT", "PASTEVERT", "SAVEAS \"a.test\"", "UNDO 9",
      "SAVEAS \"a.undone\"", "REDO 9", "SAVEAS \"a.redone\"", "EXIT"]
    let document := Document.ofText "abcd"
    Script.NumeralsFit script ∧ check script document (some "a") = .ok [] ∧
      ∃ opening steps closing, Script.parse script = .ok (opening ++ (steps ++ closing)) ∧
        Passes document (some "a") opening steps closing := by
  intro script document
  have hfit : Script.NumeralsFit script := Script.numeralsFit_of_length_le (by decide +kernel)
  have hcheck : check script document (some "a") = .ok [] := rfl
  exact ⟨hfit, hcheck, (passes_iff hfit).2.1 hcheck⟩

end Audit
end UndoScript

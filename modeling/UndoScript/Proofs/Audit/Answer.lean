/-
# Every script gets an answer, but for one kind

A check reads the lines of a script in turn and stops at the first that is no
command. It answers with that line and the cause, or, if there is none, with the
problems of the commands, and all of this can be put in words. Every script is
meant to get an answer. One kind gets none: its first bad line is a keyword that
takes a number, with more digits than are read.

Key theorems: `Audit.check_eq_error_iff`, `Audit.check_of_stopsAt`,
`Audit.check_answers`, `Audit.not_check_answers`.
-/
import UndoScript.Proofs.Audit.Acceptance
import UndoScript.Proofs.Audit.Wording
import UndoScript.Proofs.Command.Legible

namespace UndoScript
namespace Audit

variable {script line : Text} {document : Document} {target : Option Text} {lineno : Nat}
  {f : Fault} {p : Problem} {found : List Problem}

/-- **A check has no answer exactly if the first bad line has a number that is too long.** -/
theorem check_eq_error_iff : check script document target = .error f ↔
    ∃ line lineno, Script.StopsAt script line lineno f ∧ Command.HasLongNumeral line := by
  constructor
  · intro h
    unfold check at h
    split at h
    · next cs hparse =>
      obtain ⟨found, hfound⟩ := exists_problems fun c hc => (Script.legible_of_mem hparse hc).2
      rw [hfound] at h
      cases h
    · cases h
    · next g hnoline hparse =>
      cases h
      obtain ⟨line, lineno, hstops⟩ := Script.parse_eq_error_iff.1 hparse
      rcases hstops.refusal with ⟨-, why, rfl⟩ | ⟨hlong, -⟩
      · exact absurd rfl (hnoline lineno line why)
      · exact ⟨line, lineno, hstops, hlong⟩
  · rintro ⟨line, lineno, hstops, hlong⟩
    rcases hstops.refusal with ⟨hshort, -⟩ | ⟨-, digits, rfl⟩
    · exact absurd hlong hshort
    · unfold check
      rw [Script.parse_eq_error_iff.2 ⟨line, lineno, hstops⟩]

/-- **Any other bad line is the answer,** with its cause. -/
theorem check_of_stopsAt (h : Script.StopsAt script line lineno f)
    (hshort : ¬ Command.HasLongNumeral line) : ∃ why, f = .badLine lineno line why ∧
      check script document target = .ok [.badLine lineno line why] := by
  rcases h.refusal with ⟨-, why, rfl⟩ | ⟨hlong, -⟩
  · refine ⟨why, rfl, ?_⟩
    unfold check
    rw [Script.parse_eq_error_iff.2 ⟨line, lineno, h⟩]
  · exact absurd hlong hshort

/-- All problems can be put in words, since the commands were read and the lines can be counted. -/
theorem renders_of_mem_check (h : check script document target = .ok found)
    (hlines : script.pieces.length < 10 ^ Numeral.limit) (hp : p ∈ found) : p.Renders := by
  cases hparse : Script.parse script with
  | ok cs =>
    unfold check at h
    rw [hparse] at h
    exact renders_of_mem_problems h hp
  | error f =>
    obtain ⟨line, lineno, hstops⟩ := Script.parse_eq_error_iff.1 hparse
    by_cases hlong : Command.HasLongNumeral line
    · rw [check_eq_error_iff.2 ⟨line, lineno, hstops, hlong⟩] at h
      cases h
    · obtain ⟨why, -, hanswer⟩ := check_of_stopsAt hstops hlong
      rw [hanswer] at h
      cases h
      obtain rfl := List.mem_singleton.1 hp
      exact Numeral.writable_of_lt (Nat.lt_of_le_of_lt hstops.lineno_le hlines)

/-- **What a check answers.** It has no answer exactly if the first line of the script that is no
command is a keyword that takes a number, with too many digits; then it fails for these. Any other
line that is the first to be no command is the answer, with its number, its text and the cause. And
every problem of an answer can be put in words, as long as the number of lines can. -/
theorem check_answers (script : Text) (document : Document) (target : Option Text) :
    (∀ f, check script document target = .error f ↔
      ∃ line lineno, Script.StopsAt script line lineno f ∧ Command.HasLongNumeral line) ∧
    (∀ f, check script document target = .error f → ∃ digits, f = .numeralTooLong digits) ∧
    (∀ line lineno f, Script.StopsAt script line lineno f → ¬ Command.HasLongNumeral line →
      ∃ why, f = .badLine lineno line why ∧
        check script document target = .ok [.badLine lineno line why]) ∧
    (∀ found, check script document target = .ok found →
      script.pieces.length < 10 ^ Numeral.limit → ∀ p ∈ found, p.Renders) := by
  refine ⟨fun f => check_eq_error_iff, fun f h => ?_, fun line lineno f => check_of_stopsAt,
    fun found h hlines p hp => renders_of_mem_check h hlines hp⟩
  obtain ⟨line, lineno, hstops, hlong⟩ := check_eq_error_iff.1 h
  rcases hstops.refusal with ⟨hshort, -⟩ | ⟨-, hlimit⟩
  · exact absurd hlong hshort
  · exact hlimit

/-- **Not every script gets an answer:** the line of a command with a number one digit too long gets
none. -/
theorem not_check_answers : ¬ ∀ (script : Text) (document : Document) (target : Option Text),
    ∃ found, check script document target = .ok found := by
  intro h
  let c : Command := ⟨.undo, .number (10 ^ Numeral.limit), rfl⟩
  have hlong : Command.HasLongNumeral c.text :=
    Command.hasLongNumeral_text rfl (Int.pow_nonneg (by decide)) Numeral.not_writable_limit
  obtain ⟨digits, hrefuses⟩ := hlong.refuses 1
  have hstops : Script.StopsAt c.text c.text 1 (.numeralTooLong digits) :=
    ⟨[], [], Script.numberedLines_text c, by simp, hrefuses⟩
  obtain ⟨found, hfound⟩ := h c.text (Document.ofText "abcd") none
  rw [check_eq_error_iff.2 ⟨_, _, hstops, hlong⟩] at hfound
  cases hfound

end Audit
end UndoScript

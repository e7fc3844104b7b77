/-
# Reading puts a line in its normal form

A line that is read is a command, and the command's own line is read as the same
command: the line is put in its normal form, with the keyword in capitals, one
space and no zeros that do not count. A line that is not read is refused with
its number and its text, or it has a number of too many digits, or a text with a
line feed inside. Only a line whose own number is too large to be written makes
a fourth case.

Key theorems: `Command.exists_feeds`, `Command.parse_normalises`,
`Command.not_parse_normalises`.
-/
import UndoScript.Proofs.Command.Legible
import UndoScript.Proofs.Command.Refusal

namespace UndoScript
namespace Command

/-- What counts of a line is all but the line feeds at its end. -/
theorem exists_feeds (line : Text) : (∃ n, line = lineText line ++ List.replicate n .newline) ∧
    (lineText line).getLast? ≠ some .newline := by
  obtain ⟨l⟩ := Layout.exists_layout line
  rw [l.lineText_eq]
  refine ⟨⟨l.feeds.length, ?_⟩, l.ends⟩
  rw [← List.eq_replicate_of_mem l.feeds_all]
  exact l.line_eq

/-- A line is refused as a line, or for its number, or for a line feed. -/
theorem Refuses.cause {line : Text} {lineno : Int} {f : Fault} (h : Refuses line lineno f) :
    (∃ why, f = .badLine lineno (lineText line) why) ∨ (∃ n, f = .numeralTooLong n) ∨
      ∃ k, f = .broken (.spansLines k) := by
  cases h with
  | numeralTooLong => exact .inr (.inl ⟨_, rfl⟩)
  | spansLines => exact .inr (.inr ⟨_, rfl⟩)
  | _ => exact .inl ⟨_, rfl⟩

/-- **What comes of a line.** If it is read as a command, that command can be written, and its line
is read as the same command. If not, it is refused with its number and all of it but the line feeds
at its end, save in two cases: it is a keyword that takes a number and a run of more digits than are
read, or a keyword that takes a text and a text, bare or between quotes, with a line feed in it. A
refusal with a number that is too large to be written fails for that number instead. -/
theorem parse_normalises (line : Text) (lineno : Int) :
    (∀ c, parse line lineno = .ok c → c.render = .ok c.text ∧ ∀ n, parse c.text n = .ok c) ∧
    ((∃ n, line = lineText line ++ List.replicate n .newline) ∧
      (lineText line).getLast? ≠ some .newline) ∧
    (∀ f, parse line lineno = .error f →
      (Numeral.Writable lineno ∧ ∃ why, f = .badLine lineno (lineText line) why) ∨
      (∃ n, f = .numeralTooLong n) ∨ (∃ k, f = .broken (.spansLines k)) ∨
      (¬ Numeral.Writable lineno ∧ f = .numberTooLarge)) ∧
    (∀ n, parse line lineno = .error (.numeralTooLong n) ↔ ∃ k digits, Spells line k digits ∧
      k.kind = .number ∧ Numeral.isNumeral digits = true ∧ Numeral.limit < digits.length ∧
      n = digits.length) ∧
    (∀ k, parse line lineno = .error (.broken (.spansLines k)) ↔
      k.kind = .string ∧ ∃ t, SpellsText line k t ∧ .newline ∈ t) ∧
    (parse line lineno = .error .numberTooLarge ↔ ¬ Numeral.Writable lineno ∧
      ∃ why, read line lineno = .error (.badLine lineno (lineText line) why)) := by
  refine ⟨fun c hc => ?_, exists_feeds line, fun f hf => ?_, fun n => ?_, fun k => ?_, ?_⟩
  · obtain ⟨hread, hrenders⟩ := legible_of_parse hc
    exact ⟨render_eq_ok_iff.2 ⟨hrenders, rfl⟩, parse_text hread hrenders⟩
  · obtain ⟨g, hrefuses, rfl⟩ := parse_eq_error_iff.1 hf
    by_cases hlineno : Numeral.Writable lineno
    · rw [hrefuses.inWords_eq hlineno]
      exact hrefuses.cause.imp (fun hline => ⟨hlineno, hline⟩) fun h => h.imp_right .inl
    · rcases hrefuses.cause with ⟨why, rfl⟩ | ⟨n, rfl⟩ | ⟨k, rfl⟩
      · exact .inr (.inr (.inr ⟨hlineno, if_neg hlineno⟩))
      · exact .inr (.inl ⟨n, Fault.inWords_of_renders trivial⟩)
      · exact .inr (.inr (.inl ⟨k, Fault.inWords_spansLines k⟩))
  · rw [parse_eq_error_iff_of_ne (by simp)]
    constructor
    · rintro ⟨h, -⟩
      cases h with
      | numeralTooLong hspells hkind hnumeral hlength =>
        exact ⟨_, _, hspells, hkind, hnumeral, hlength, rfl⟩
    · rintro ⟨k, digits, hspells, hkind, hnumeral, hlength, rfl⟩
      exact ⟨.numeralTooLong hspells hkind hnumeral hlength, trivial⟩
  · rw [parse_eq_error_iff_of_ne (by simp)]
    constructor
    · rintro ⟨h, -⟩
      cases h with
      | spansLines htext hkind hmem => exact ⟨hkind, _, htext, hmem⟩
    · rintro ⟨hkind, t, htext, hmem⟩
      exact ⟨.spansLines htext hkind hmem, trivial⟩
  · rw [parse_eq_error_iff]
    constructor
    · rintro ⟨g, hrefuses, hg⟩
      have hlineno : ¬ Numeral.Writable lineno := fun h => by
        rw [hrefuses.inWords_eq h] at hg
        subst hg
        cases hrefuses
      rcases hrefuses.cause with ⟨why, rfl⟩ | ⟨n, rfl⟩ | ⟨k, rfl⟩
      · exact ⟨hlineno, why, read_eq_error_iff.2 hrefuses⟩
      · cases hg.trans (Fault.inWords_of_renders trivial)
      · cases hg.trans (Fault.inWords_spansLines k)
    · rintro ⟨hlineno, why, hread⟩
      exact ⟨_, read_eq_error_iff.1 hread, (if_neg hlineno).symm⟩

/-- **Not every line that is refused is refused as a line:** one that is no command is not, if its
number has a digit too many. -/
theorem not_parse_normalises : ¬ ∀ (line : Text) (lineno : Int) (f : Fault),
    parse line lineno = .error f → (∃ why, f = .badLine lineno (lineText line) why) ∨
      (∃ n, f = .numeralTooLong n) ∨ ∃ k, f = .broken (.spansLines k) := by
  intro h
  have hread (n : Int) : read "FROB" n = .error (.badLine n "FROB" .unknownCommand) := rfl
  have hwords : (Fault.badLine (10 ^ Numeral.limit) "FROB" .unknownCommand).inWords =
      .numberTooLarge := if_neg Numeral.not_writable_limit
  have hparse : parse "FROB" (10 ^ Numeral.limit) = .error .numberTooLarge :=
    parse_eq_error_iff_read.2 ⟨_, hread _, hwords.symm⟩
  rcases h _ _ _ hparse with ⟨_, hline⟩ | ⟨_, hlong⟩ | ⟨_, hspans⟩
  · cases hline
  · cases hlong
  · cases hspans

example : ∃ c, parse "\t undo   007\n\n" 3 = .ok c ∧ c.text = "UNDO 7" :=
  ⟨⟨.undo, .number 7, rfl⟩, rfl, rfl⟩

end Command
end UndoScript

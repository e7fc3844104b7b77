/-
# Commands as they read

What a reader sees of a command is its keyword and what follows it: its
phrase. That the two fit is no further information, so a command is its
phrase, and every phrase that fits is a command's.

Key definitions: `Phrase`, `Command.phrase`.
Key theorems: `Command.phrase_inj`, `Command.make_eq_ok_iff_phrase`,
`Command.exists_phrases`.
-/
import UndoScript.Command.Basic

namespace UndoScript

/-- A keyword and what follows it. -/
abbrev Phrase := Keyword × Argument

namespace Command

/-- The command as it reads. -/
def phrase (c : Command) : Phrase := (c.keyword, c.argument)

theorem phrase_inj {c d : Command} : c.phrase = d.phrase ↔ c = d := by
  refine ⟨fun h => ?_, fun h => h ▸ rfl⟩
  cases c
  cases d
  simp only [phrase, Prod.mk.injEq] at h
  obtain ⟨rfl, rfl⟩ := h
  rfl

@[simp] theorem phrase_plain (k : Keyword) : (plain k).phrase = (k, .absent) := rfl

@[simp] theorem phrase_mk (k : Keyword) (a : Argument) (h : a.Fits k) :
    (⟨k, a, h⟩ : Command).phrase = (k, a) := rfl

theorem fits_phrase (c : Command) : c.phrase.2.Fits c.phrase.1 := c.fits

/-! ### Making commands -/

theorem make_eq_ok_iff_phrase {k : Keyword} {a : Argument} {c : Command} :
    make k a = .ok c ↔ c.phrase = (k, a) := by
  simp [make_eq_ok_iff, phrase]

theorem number_eq_ok_iff {k : Keyword} {n : Int} {c : Command} :
    number k n = .ok c ↔ c.phrase = (k, .number n) := make_eq_ok_iff_phrase

theorem string_eq_ok_iff {k : Keyword} {t : Text} {c : Command} :
    string k t = .ok c ↔ c.phrase = (k, .quoted t) := make_eq_ok_iff_phrase

theorem token_eq_ok_iff {k : Keyword} {t : Text} {c : Command} :
    token k t = .ok c ↔ t.isSturdy = true ∧ c.phrase = (k, .bare t) := by
  unfold token
  split
  · simp [*, make_eq_ok_iff_phrase]
  · simp [*]

/-- A number is never refused after a keyword that takes one. -/
theorem number_ne_error {k : Keyword} {n : Int} {f : Fault} (hk : k.kind = .number) :
    number k n ≠ .error f := by
  simp [number, make_eq_error_iff, Argument.Fits, hk]

/-- A quoted text is refused only for what does not fit: the keyword, or a line feed in it. -/
theorem string_eq_error_iff {k : Keyword} {t : Text} {f : Fault} (hk : k.kind = .string) :
    string k t = .error f ↔ Glyph.newline ∈ t ∧ f = .broken (.spansLines k) := by
  simp [string, make_eq_error_iff, Argument.Fits, Argument.misfit, hk]

/-- A sturdy text without a line feed is never refused. -/
theorem token_ne_error {k : Keyword} {t : Text} {f : Fault} (hk : k.kind = .string)
    (hsturdy : t.isSturdy = true) (hline : Glyph.newline ∉ t) : token k t ≠ .error f := by
  simp [token, hsturdy, make_eq_error_iff, Argument.Fits, hk, hline]

/-! ### Lists of commands -/

/-- Phrases that fit are read off commands. -/
theorem exists_phrases : ∀ ps : List Phrase, (∀ p ∈ ps, p.2.Fits p.1) →
    ∃ cs : List Command, cs.map phrase = ps
  | [], _ => ⟨[], rfl⟩
  | (k, a) :: ps, h => by
    obtain ⟨cs, rfl⟩ := exists_phrases ps fun p hp => h p (List.mem_cons_of_mem _ hp)
    exact ⟨⟨k, a, h _ List.mem_cons_self⟩ :: cs, rfl⟩

/-- What holds of all phrases holds of all commands. -/
theorem forall_of_phrases {cs : List Command} {ps : List Phrase} {P : Phrase → Prop}
    (hcs : cs.map phrase = ps) (h : ∀ p ∈ ps, P p) : ∀ c ∈ cs, P c.phrase :=
  fun c hc => h _ (hcs ▸ List.mem_map.2 ⟨c, hc, rfl⟩)

end Command
end UndoScript

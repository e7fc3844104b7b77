/-
# How a script opens and closes

A script opens and closes with the same commands each time, but for one choice
of UTF-8. Both parts quote the target, so a line feed in the target is the one
thing that keeps them from being made; the first command that quotes it is the
one that reports it.

Key definitions: `Setting.openingPhrases`, `Setting.closingPhrases`.
Key theorems: `Setting.yields_opening`, `Setting.fails_opening_iff`,
`Setting.exists_closing`, `Setting.closing_eq_error`.
-/
import UndoScript.Proofs.Session.Step

namespace UndoScript
namespace Setting

open Sampler

variable {s : Setting} {cs : List Command} {f : Fault}

/-- What opens the document, with UTF-8 off or on if that is drawn. -/
def openingPhrases (s : Setting) (utf8 : Nat) : List Phrase :=
  if s.options.binary then
    [(.binary, .absent), (.openFile, .quoted s.target), (.turbo, .number s.options.turbo)]
  else
    [(.openFile, .quoted s.target), (.turbo, .number s.options.turbo)] ++
      (if s.options.matchBrackets then [(.autoMatchBracket, .number 1)] else []) ++
      (if s.options.toggleUtf8 then [(.utf8, .number utf8)] else [])

/-- What closes the script. -/
def closingPhrases (s : Setting) : List Phrase :=
  [(.saveAs, .quoted (s.savedAs ".test")), (.undo, .number s.options.undoDepth),
   (.saveAs, .quoted (s.savedAs ".undone")), (.redo, .number s.options.undoDepth),
   (.saveAs, .quoted (s.savedAs ".redone")), (.exit, .absent)]

/-! ### Opening -/

theorem newline_not_mem_of_string {k : Keyword} {t : Text} {c : Command}
    (h : Command.string k t = .ok c) : Glyph.newline ∉ t := by
  have hfits := c.fits_phrase
  rw [Command.string_eq_ok_iff.1 h] at hfits
  exact hfits.2

/-- What the opening comes to. -/
theorem yields_opening (h : s.opening.Yields cs) : Glyph.newline ∉ s.target ∧
    ∃ utf8 < 2, cs.map Command.phrase = s.openingPhrases utf8 := by
  unfold opening at h
  simp only [yields_bind, yields_liftM] at h
  obtain ⟨openFile, hopen, turbo, hturbo, h⟩ := h
  refine ⟨newline_not_mem_of_string hopen, ?_⟩
  rw [Command.string_eq_ok_iff] at hopen
  rw [Command.number_eq_ok_iff] at hturbo
  unfold openingPhrases
  by_cases hb : s.options.binary
  · rw [if_pos hb, yields_pure] at h
    simp only [if_pos hb, h]
    exact ⟨0, by omega, by simp [hopen, hturbo]⟩
  · rw [if_neg hb] at h
    simp only [if_neg hb]
    cases hm : s.options.matchBrackets <;> cases hu : s.options.toggleUtf8 <;>
      simp only [hm, hu, if_true, Bool.false_eq_true, if_false, yields_bind, yields_liftM,
        yields_drawFrom, yields_pure, Command.number_eq_ok_iff] at h
    · obtain ⟨_, rfl, _, rfl, rfl⟩ := h
      exact ⟨0, by omega, by simp [hopen, hturbo]⟩
    · obtain ⟨_, rfl, utf8, ⟨-, hlt⟩, c, hc, _, rfl, rfl⟩ := h
      exact ⟨utf8, hlt, by simp [hc, hopen, hturbo]⟩
    · obtain ⟨b, hbrackets, _, rfl, _, rfl, rfl⟩ := h
      exact ⟨0, by omega, by simp [hbrackets, hopen, hturbo]⟩
    · obtain ⟨b, hbrackets, _, rfl, utf8, ⟨-, hlt⟩, c, hc, _, rfl, rfl⟩ := h
      exact ⟨utf8, hlt, by simp [hbrackets, hc, hopen, hturbo]⟩

/-- **The opening fails exactly for a line feed in the target.** -/
theorem fails_opening_iff :
    s.opening.Fails f ↔ Glyph.newline ∈ s.target ∧ f = .broken (.spansLines .openFile) := by
  have hnumber (k : Keyword) (n : Int) (hk : k.kind = .number) : Command.number k n ≠ .error f :=
    Command.number_ne_error hk
  unfold opening
  rw [fails_bind, fails_liftM, Command.string_eq_error_iff rfl, or_iff_left_iff_imp]
  rintro ⟨openFile, -, h⟩
  rw [fails_bind, fails_liftM] at h
  rcases h with h | ⟨turbo, -, h⟩
  · exact absurd h (hnumber .turbo _ rfl)
  · split at h
    · exact absurd h fails_pure
    · cases hm : s.options.matchBrackets <;> cases hu : s.options.toggleUtf8 <;>
        simp [hm, hu, hnumber .autoMatchBracket _ rfl, hnumber .utf8 _ rfl] at h

/-! ### Closing -/

theorem newline_mem_savedAs_iff {ending : String} (h : Glyph.newline ∉ Text.ofString ending) :
    Glyph.newline ∈ s.savedAs ending ↔ Glyph.newline ∈ s.target := by
  rw [savedAs, List.mem_append, or_iff_left h]

/-- What the closing comes to. -/
theorem exists_closing (h : Glyph.newline ∉ s.target) :
    ∃ cs, s.closing = .ok cs ∧ cs.map Command.phrase = s.closingPhrases := by
  have hsave (ending : String) (he : Glyph.newline ∉ Text.ofString ending) :
      ∃ c, Command.string .saveAs (s.savedAs ending) = .ok c ∧
        c.phrase = (.saveAs, .quoted (s.savedAs ending)) :=
    ⟨⟨.saveAs, .quoted (s.savedAs ending), rfl, mt (newline_mem_savedAs_iff he).1 h⟩,
      Command.make_of_fits _, rfl⟩
  have hnumber (k : Keyword) (hk : k.kind = .number) : ∃ c,
      Command.number k s.options.undoDepth = .ok c ∧ c.phrase = (k, .number s.options.undoDepth) :=
    ⟨⟨k, .number s.options.undoDepth, hk⟩, Command.make_of_fits _, rfl⟩
  obtain ⟨test, htest, htest'⟩ := hsave ".test" (by decide)
  obtain ⟨undone, hundone, hundone'⟩ := hsave ".undone" (by decide)
  obtain ⟨redone, hredone, hredone'⟩ := hsave ".redone" (by decide)
  obtain ⟨undo, hundo, hundo'⟩ := hnumber .undo rfl
  obtain ⟨redo, hredo, hredo'⟩ := hnumber .redo rfl
  refine ⟨[test, undo, undone, redo, redone, .plain .exit], ?_, ?_⟩
  · unfold closing
    dsimp only
    rw [htest, hundone, hredone, hundo, hredo]
    rfl
  · simp [closingPhrases, htest', hundone', hredone', hundo', hredo']

/-- **The closing fails for a line feed in the target.** -/
theorem closing_eq_error (h : Glyph.newline ∈ s.target) :
    s.closing = .error (.broken (.spansLines .saveAs)) := by
  have htest : Command.string .saveAs (s.savedAs ".test") = .error (.broken (.spansLines .saveAs)) :=
    (Command.string_eq_error_iff rfl).2 ⟨(newline_mem_savedAs_iff (by decide)).2 h, rfl⟩
  unfold closing
  rw [htest]
  rfl

end Setting
end UndoScript

/-
# What the guard of bare texts lets through

A bare text is let through if it is not empty and has no blank at either end. So
no indent is lost from it, and nothing more is needed for it to come back from
its line, but one thing: it must not start with a quote. The guard does not look
for that. A text that starts with a quote comes back as what is between the
quotes, if it ends with another, and not at all if it does not.

Key theorems: `Command.parse_text_of_closed`, `Command.parse_text_of_open`,
`Command.token_read_back`, `Command.not_token_read_back`.
-/
import UndoScript.Proofs.Command.Legible
import UndoScript.Proofs.Command.Refusal

namespace UndoScript

/-- A sturdy text starts with a glyph that is no indent. -/
theorem Text.isIndent_of_isSturdy {t : Text} (h : t.isSturdy = true) :
    t ≠ [] ∧ ∀ g, t.head? = some g → g.isIndent = false := by
  simp only [isSturdy, Bool.and_eq_true, Bool.not_eq_true', List.isEmpty_eq_false_iff] at h
  obtain ⟨⟨hne, hhead⟩, -⟩ := h
  refine ⟨hne, fun g hg => ?_⟩
  have hblank : g.isBlank = false := by simpa [hg] using hhead
  rw [Glyph.isIndent, Bool.or_eq_false_iff, beq_eq_false_iff_ne, beq_eq_false_iff_ne]
  constructor
  · rintro rfl
    cases hblank
  · rintro rfl
    cases hblank

namespace Command

variable {k : Keyword} {t : Text} {c : Command}

/-- A keyword may be given by its name. -/
theorem tokenNamed_name : tokenNamed (Text.ofString k.name) (.text t) = token k t := by
  unfold tokenNamed token ofParts
  dsimp only
  rw [Keyword.ofName?_name]
  exact congrArg (fun d => if t.isSturdy then d else _) (bind_pure _)

theorem fits_of_bare (hargument : c.argument = .bare t) :
    c.keyword.kind = .string ∧ Glyph.newline ∉ t := by
  have hfits := c.fits
  rwa [hargument] at hfits

/-! ### Bare texts that start with a quote -/

theorem spells_text_of_quote (hargument : c.argument = .bare t)
    (hquote : t.head? = some (.char '"')) : Spells c.text c.keyword t := by
  have hspelled : c.argument.spelled = t := by rw [hargument, Argument.spelled_bare]
  have hindent : ∀ g, c.argument.spelled.head? = some g → g.isIndent = false := by
    intro g hg
    obtain rfl : .char '"' = g := by simpa [hspelled, hquote] using hg
    decide
  have hspells := spells_text hindent
  rwa [hspelled] at hspells

/-- With a quote at its end, the text is read as a quoted one. -/
theorem parse_text_of_closed {u : Text}
    (hargument : c.argument = .bare (.char '"' :: (u ++ [.char '"']))) (lineno : Int) :
    ∃ d, parse c.text lineno = .ok d ∧ d.phrase = (c.keyword, .quoted u) := by
  obtain ⟨hkind, hline⟩ := fits_of_bare hargument
  have hspells := spells_text_of_quote hargument List.head?_cons
  have hinside : (Argument.quoted u).Fits c.keyword := ⟨hkind, fun hu => hline (by simp [hu])⟩
  refine ⟨⟨c.keyword, .quoted u, hinside⟩, ?_, rfl⟩
  rw [parse_eq_ok_iff, read_of_spells_ne hspells (List.cons_ne_nil _ _), parseArgument_quoted hkind]
  exact make_of_fits hinside

/-- Without one, it is refused. -/
theorem parse_text_of_open (hargument : c.argument = .bare t)
    (hquote : t.head? = some (.char '"')) (hopen : ∀ u, t ≠ .char '"' :: (u ++ [.char '"']))
    (lineno : Int) :
    parse c.text lineno = .error (Fault.badLine lineno c.text .unterminatedString).inWords := by
  have hkind := (fits_of_bare hargument).1
  have hrefuses : Refuses c.text lineno _ :=
    .unterminatedString (spells_text_of_quote hargument hquote) hkind hquote hopen
  rw [lineText_of_not_mem c.newline_not_mem_text] at hrefuses
  exact parse_eq_error_iff.2 ⟨_, hrefuses, rfl⟩

/-- In neither case does it come back. -/
theorem parse_text_ne_of_quote (hargument : c.argument = .bare t)
    (hquote : t.head? = some (.char '"')) (lineno : Int) : parse c.text lineno ≠ .ok c := by
  intro hparse
  by_cases hclosed : ∃ u, t = .char '"' :: (u ++ [.char '"'])
  · obtain ⟨u, rfl⟩ := hclosed
    obtain ⟨d, hd, hphrase⟩ := parse_text_of_closed hargument lineno
    obtain rfl : c = d := Except.ok.inj (hparse.symm.trans hd)
    have hquoted : c.argument = .quoted u := (Prod.mk.inj hphrase).2
    rw [hargument] at hquoted
    cases hquoted
  · rw [parse_text_of_open hargument hquote (by simpa using hclosed)] at hparse
    cases hparse

/-- **Which bare texts come back.** Let the guard have no objection to a bare text after a keyword,
which then is one that takes a text. The command can be written. It is read back from its line
exactly if the text does not start with a quote. If it does, it is read as a quoted text where
another quote ends it, and refused as a string without end where none does. -/
theorem token_read_back (h : tokenNamed (Text.ofString k.name) (.text t) = .ok c) (lineno : Int) :
    k.kind = .string ∧
    c.render = .ok c.text ∧
    (parse c.text lineno = .ok c ↔ t.head? ≠ some (.char '"')) ∧
    (∀ u, t = .char '"' :: (u ++ [.char '"']) →
      ∃ d, parse c.text lineno = .ok d ∧ d.phrase = (k, .quoted u)) ∧
    (t.head? = some (.char '"') → (∀ u, t ≠ .char '"' :: (u ++ [.char '"'])) →
      parse c.text lineno = .error (Fault.badLine lineno c.text .unterminatedString).inWords) := by
  rw [tokenNamed_name, token_eq_ok_iff] at h
  obtain ⟨hsturdy, hphrase⟩ := h
  obtain ⟨hne, hindent⟩ := Text.isIndent_of_isSturdy hsturdy
  obtain ⟨rfl, hargument⟩ := Prod.mk.inj hphrase
  have hrenders : c.Renders := by
    unfold Renders
    rw [hargument]
    trivial
  refine ⟨(fits_of_bare hargument).1, render_eq_ok_iff.2 ⟨hrenders, rfl⟩,
    ⟨fun hparse hquote => ?_, fun hquote => ?_⟩, ?_, fun hquote hopen => ?_⟩
  · exact parse_text_ne_of_quote hargument hquote lineno hparse
  · obtain ⟨g, rest, rfl⟩ := List.exists_cons_of_ne_nil hne
    have hread : c.argument.ReadsBack := by
      rw [hargument]
      exact ⟨g, rest, rfl, hindent g rfl, by simpa using hquote⟩
    exact parse_text hread hrenders lineno
  · rintro u rfl
    exact parse_text_of_closed hargument lineno
  · exact parse_text_of_open hargument hquote hopen lineno

/-- Quotes inside a text do no harm. -/
theorem token_read_back_of_inner_quotes :
    let t : Text := "say \"hi\""
    ∃ c, tokenNamed (Text.ofString Keyword.find.name) (.text t) = .ok c ∧ parse c.text 0 = .ok c := by
  intro t
  have hfits : (Argument.bare t).Fits .find := by decide
  have hmade : tokenNamed (Text.ofString Keyword.find.name) (.text t) = .ok ⟨.find, .bare t, hfits⟩ :=
    rfl
  obtain ⟨-, -, hback, -⟩ := token_read_back hmade 0
  exact ⟨_, hmade, hback.2 (by decide)⟩

/-- **The guard lets texts through that do not come back:** those that start with a quote. -/
theorem not_token_read_back : ¬ ∀ (k : Keyword) (t : Text) (c : Command) (lineno : Int),
    k.kind = .string → tokenNamed (Text.ofString k.name) (.text t) = .ok c →
      parse c.text lineno = .ok c := by
  intro h
  have hback := h .find "\"abc\"" ⟨.find, .bare "\"abc\"", by decide⟩ 0 rfl rfl
  have hread : parse (text ⟨.find, .bare "\"abc\"", by decide⟩) 0 =
      .ok ⟨.find, .quoted "abc", by decide⟩ := rfl
  rw [hread] at hback
  have hsame : Argument.quoted "abc" = .bare "\"abc\"" := congrArg argument (Except.ok.inj hback)
  cases hsame

end Command
end UndoScript

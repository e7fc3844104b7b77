/-
# The syntax is the target's extension

The action that sets the syntax asks the source once, for one of two numbers.
After 0 it names any syntax, after 1 the extension of the target, and any syntax
if there is none. What it names is a word, so the command is never refused, and
it is read back from its line.

Key theorems: `Session.run_act_setSyntax`, `Session.syntax_names_extension`.
-/
import UndoScript.Proofs.Command.Legible
import UndoScript.Proofs.Session.Course

namespace UndoScript

open Sampler

/-- A word is never refused as a bare text, and comes back. -/
theorem Command.exists_token {k : Keyword} {t : Text} (hk : k.kind = .string) (ht : t.IsWord) :
    ∃ c, token k t = .ok c ∧ c.phrase = (k, .bare t) ∧ c.render = .ok c.text ∧
      ∀ n, parse c.text n = .ok c := by
  have hfits := Argument.fits_bare_of_isWord hk ht
  have hlegible : Legible ⟨k, .bare t, hfits⟩ := ⟨Argument.readsBack_of_isWord ht, trivial⟩
  refine ⟨⟨k, .bare t, hfits⟩, token_eq_ok_iff.2 ⟨ht.isSturdy, rfl⟩, rfl,
    render_eq_ok_iff.2 ⟨hlegible.2, rfl⟩, parse_text hlegible.1 hlegible.2⟩

namespace Session

variable {σ : Type} [Source σ]

/-- Setting the syntax takes one draw, and makes one command of the answer. -/
theorem run_act_setSyntax (s : Session σ) {choice : Fin 2} {source : σ} {t : Text} {c : Command}
    (hdraw : Source.below 2 Nat.two_pos s.source = (choice, source))
    (ht : (if choice = 0 then Text.ofString "*" else
      (Path.extension? s.setting.target).getD "*") = t)
    (hc : Command.token .setSyntax t = .ok c) :
    (act .setSyntax).run s = (.ok [c], { s with source }) := by
  have hchoice : (draw 2).run s.source = (.ok choice, source) := by
    show Sampler.run (.done (Source.below 2 _ s.source).1) (Source.below 2 _ s.source).2 = _
    rw [hdraw]
    rfl
  have hperform : (Action.perform s.setting s.memory .setSyntax).run s.source =
      (.ok ([c], s.memory), source) := by
    unfold Action.perform
    rw [Sampler.run_bind, hchoice]
    dsimp only
    rw [ht, hc]
    rfl
  rw [run_act, hperform]

/-- What is named after another answer than 0 is what the target's last part ends with. -/
theorem getD_extension?_eq_iff {path e : Text} (he : Path.IsExtensionText e) :
    (Path.extension? path).getD "*" = e ↔ Path.NameEndsWith path e := by
  have hstar : Text.ofString "*" ≠ e := by
    rintro rfl
    obtain ⟨c, hc, hrange⟩ := he.2 (.char '*') (by decide)
    obtain rfl : '*' = c := Glyph.char.inj hc
    exact absurd hrange (by decide)
  rw [← Path.extension?_eq_some_iff_name he]
  cases Path.extension? path with
  | none => simpa using hstar
  | some u => simp

/-- **The syntax is set to the target's extension.** The action draws one of two numbers, and no
more changes in the session than the source. After 0 it emits SYNTAX with a star. After 1 it emits
SYNTAX with whatever one or more small letters and digits the part of the target after its last
slash ends with, after a point, and with a star if there are none; there is only one such text. The
bare text it names is never refused, and the command is read back from its line. -/
theorem syntax_names_extension (s : Session σ) : ∃ (choice : Fin 2) (source : σ) (c : Command)
    (t : Text), Source.below 2 Nat.two_pos s.source = (choice, source) ∧
      (act .setSyntax).run s = (.ok [c], { s with source }) ∧
      c.phrase = (.setSyntax, .bare t) ∧
      (choice = 0 → t = "*") ∧
      (choice ≠ 0 →
        (∀ e, Path.IsExtensionText e → (t = e ↔ Path.NameEndsWith s.setting.target e)) ∧
        ((∀ e, Path.IsExtensionText e → ¬ Path.NameEndsWith s.setting.target e) → t = "*")) ∧
      (∀ e e', Path.IsExtensionText e → Path.IsExtensionText e' →
        Path.NameEndsWith s.setting.target e → Path.NameEndsWith s.setting.target e' → e = e') ∧
      Command.token .setSyntax t = .ok c ∧
      c.render = .ok c.text ∧ ∀ n, Command.parse c.text n = .ok c := by
  rcases hdraw : Source.below 2 Nat.two_pos s.source with ⟨choice, source⟩
  obtain ⟨t, ht⟩ : ∃ t, (if choice = 0 then Text.ofString "*" else
    (Path.extension? s.setting.target).getD "*") = t := ⟨_, rfl⟩
  have hword := Action.isWord_syntaxName (Action.syntaxName_iff.1 ⟨choice, ht⟩)
  obtain ⟨c, htoken, hphrase, hrender, hparse⟩ :=
    Command.exists_token (k := .setSyntax) rfl hword
  refine ⟨choice, source, c, t, rfl, run_act_setSyntax s hdraw ht htoken, hphrase,
    fun hzero => ?_, fun hone => ⟨fun e he => ?_, fun hnone => ?_⟩,
    fun e e' he he' => Path.NameEndsWith.unique he he', htoken, hrender, hparse⟩
  · rw [← ht, if_pos hzero]
  · rw [← ht, if_neg hone, getD_extension?_eq_iff he]
  · rw [← ht, if_neg hone, Path.extension?_eq_none hnone]
    rfl

end Session
end UndoScript

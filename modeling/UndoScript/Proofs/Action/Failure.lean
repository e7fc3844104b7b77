/-
# How an action fails

An action that needs text fails on a document without content, and a text with
a line feed inside is refused by the command that quotes it. Nothing else goes
wrong: the numbers fit their keywords, the bare texts are sturdy, every range
has something in it, and the clipboard's turn asks only for what the memory
allows. So with content, and lines without line feeds, no action fails.

Key definitions: `Document.Blames`.
Key theorems: `Action.fault_of_fails_perform`.
-/
import UndoScript.Proofs.Action.Tables

namespace UndoScript

/-- The document is to blame for a failure: it has no content, or a line feed inside a line. -/
def Document.Blames (d : Document) (f : Fault) : Prop :=
  (d.hasContent = false ∧ f = .documentEmpty) ∨
    (∃ k, f = .broken (.spansLines k)) ∧ ∃ t, d.IsContent t ∧ Glyph.newline ∈ t

theorem Document.Blames.of_fragment {d : Document} {t : Text} {k : Keyword}
    (ht : d.IsFragment t) (hline : Glyph.newline ∈ t) : d.Blames (.broken (.spansLines k)) := by
  obtain ⟨-, line, hline', hpart⟩ := ht.exists_content
  exact .inr ⟨⟨k, rfl⟩, line, hline', hpart.subset hline⟩

namespace Action

open Sampler

variable {s : Setting} {m : Memory} {o : Options} {c : Category} {k : Keyword} {f : Fault}

/-! ### The parts of an action -/

theorem ranges_fit : ∀ p ∈ Emission.ranges c ++ Emission.rangesInText c,
    p.1.kind = .number ∧ p.2.1 ≤ p.2.2 := by
  cases c <;> decide

theorem wordMotions_fit : ∀ k ∈ Emission.wordMotions, k.kind = .string := by decide

/-- A word is refused after no keyword that takes a string. -/
theorem not_fails_token {t : Text} (hk : k.kind = .string) (ht : t.IsWord) :
    Command.token k t ≠ .error f :=
  Command.token_ne_error hk ht.isSturdy ht.2.newline_not_mem

theorem blames_of_fails_replacement (h : (replacement s).Fails f) : s.document.Blames f := by
  have hdrawn (once : Bool) (h : Fails (s.document.drawFragment >>= fun t =>
      liftM (Command.string (if once then .replaceOnce else .replaceAll) t)) f) :
      s.document.Blames f := by
    have hkind : (if once then Keyword.replaceOnce else .replaceAll).kind = .string := by
      cases once <;> rfl
    rw [fails_bind] at h
    rcases h with h | ⟨t, ht, h⟩
    · exact .inl (Document.fails_drawFragment.1 h)
    · obtain ⟨hline, rfl⟩ := (Command.string_eq_error_iff hkind).1 (fails_liftM.1 h)
      exact .of_fragment (Document.yields_drawFragment.1 ht) hline
  unfold replacement at h
  dsimp only at h
  split at h
  · rw [fails_bind] at h
    rcases h with h | ⟨once, -, h⟩
    · simp at h
    · exact hdrawn once h
  · exact hdrawn true h

/-- The clipboard's turn asks only for what the memory allows. -/
theorem not_fails_clipboard : ¬ (perform s m .clipboard).Fails f := by
  have hsort : Command.token .through "sort" ≠ .error f := not_fails_token rfl (by decide)
  unfold perform clipboardTurn
  cases hsel : m.selecting with
  | true => simp [exists_fin_four, Memory.closeSelection, hsel, hsort]
  | false =>
    cases hfull : m.clipboardFull with
    | true => simp [exists_fin_four, Memory.paste, hsel, hfull]
    | false => simp [exists_fin_four, Memory.openSelection, hsel, hfull]

/-! ### The actions -/

/-- **Only the document is to blame for an action that fails.** -/
theorem fault_of_fails_perform {a : Action} (ha : a ∈ table s.options c) (hm : 0 ≤ m.mutations)
    (h : (perform s m a).Fails f) : s.document.Blames f := by
  cases a with
  | plain k => simp [perform] at h
  | counted k low count =>
    obtain ⟨last, hlast, hk⟩ := counted_mem_table.1 ha
    have hfit := ranges_fit (k, low, last) (List.mem_append.2 (hk.imp_right And.right))
    have hcount : count ≠ 0 := by
      have := hfit.2
      dsimp only at this
      omega
    simp [perform, Command.number_ne_error hfit.1, hcount] at h
  | token k t =>
    have hk : Command.token k t ≠ .error f := by
      obtain ⟨-, ⟨rfl, rfl⟩ | ⟨-, rfl, rfl⟩⟩ := token_mem_table.1 ha
      · exact not_fails_token rfl (by decide)
      · exact not_fails_token rfl (by decide)
    simp [perform, hk] at h
  | wordMotion k =>
    obtain ⟨-, -, hk⟩ := wordMotion_mem_table.1 ha
    have hdigits (n : Nat) : Command.token k (Numeral.digits n) ≠ .error f :=
      not_fails_token (wordMotions_fit k hk) (Numeral.isWord_digits n)
    simp [perform, hdigits] at h
  | gotoLine =>
    have hnumber (n : Int) : Command.number .gotoLine n ≠ .error f := Command.number_ne_error rfl
    have hpos : max 1 s.document.lines.length ≠ 0 := by omega
    simp [perform, hnumber] at h
  | adjustView =>
    simp only [perform, fails_bind, fails_choose, yields_choose, fails_liftM, fails_pure,
      and_false, exists_false, or_false, Text.concat_cons, Text.concat_nil, List.append_nil] at h
    rcases h with ⟨hnil, -⟩ | ⟨height, hheight, ⟨hnil, -⟩ | ⟨side, hside, h⟩⟩
    · cases hnil
    · cases hnil
    · exact absurd h (not_fails_token rfl (Emission.isWord_view height hheight side hside))
  | clipboard => exact absurd h not_fails_clipboard
  | replaceFound =>
    simp only [perform, fails_bind, Document.fails_drawFragment, Document.yields_drawFragment,
      fails_liftM, fails_pure, and_false, exists_false, or_false] at h
    rcases h with ⟨hd, rfl⟩ | ⟨t, ht, h | ⟨-, -, h⟩⟩
    · exact .inl ⟨hd, rfl⟩
    · obtain ⟨hline, rfl⟩ := (Command.string_eq_error_iff rfl).1 h
      exact .of_fragment ht hline
    · exact blames_of_fails_replacement h
  | replaceMatch =>
    simp only [perform, fails_bind, fails_choose, yields_choose, fails_liftM, fails_pure,
      and_false, exists_false, or_false] at h
    rcases h with ⟨hnil, -⟩ | ⟨p, hp, h | ⟨-, -, h⟩⟩
    · cases hnil
    · exact absurd h (not_fails_token rfl (Emission.isWord_pattern p hp))
    · exact blames_of_fails_replacement h
  | undoThenRedo =>
    have hundo (n : Int) : Command.number .undo n ≠ .error f := Command.number_ne_error rfl
    have hredo (n : Int) : Command.number .redo n ≠ .error f := Command.number_ne_error rfl
    have hcount : ¬ m.mutations < 0 := by omega
    simp [perform, Memory.undoBound, hundo, hredo, hcount] at h
  | shift =>
    have htoken : ∀ direction ∈ ["<", ">"], ∀ n : Nat, ∀ unit ∈ ["t", "s"], Command.token .shift
        (Text.ofString direction ++ (Numeral.digits n ++ Text.ofString unit)) ≠ .error f := by
      intro direction hd n unit hu
      rw [← List.append_assoc]
      exact not_fails_token rfl (Emission.isWord_shift n hd hu)
    simp only [perform, fails_bind, fails_choose, yields_choose, fails_drawFrom, fails_liftM,
      fails_pure, and_false, exists_false, or_false, Text.concat_cons, Text.concat_nil,
      List.append_nil] at h
    rcases h with ⟨hnil, -⟩ | ⟨direction, hd, ⟨hnil, -⟩ | ⟨n, -, ⟨hnil, -⟩ | ⟨unit, hu, h⟩⟩⟩
    · cases hnil
    · cases hnil
    · cases hnil
    · exact absurd h (htoken direction hd n unit hu)
  | setSyntax =>
    simp only [perform, fails_bind, fails_draw, fails_liftM, fails_pure, and_false, exists_false,
      or_false] at h
    rcases h with ⟨hnil, -⟩ | ⟨choice, -, h⟩
    · cases hnil
    · exact absurd h (not_fails_token rfl (isWord_syntaxName (syntaxName_iff.1 ⟨choice, rfl⟩)))
  | insertString =>
    simp only [perform, fails_bind, Document.fails_drawContent, Document.yields_drawContent,
      fails_liftM, fails_pure, and_false, exists_false, or_false] at h
    rcases h with ⟨hd, rfl⟩ | ⟨t, ht, h⟩
    · exact .inl ⟨hd, rfl⟩
    · obtain ⟨hline, rfl⟩ := (Command.string_eq_error_iff rfl).1 h
      exact .inr ⟨⟨_, rfl⟩, t, ht, hline⟩

end Action
end UndoScript

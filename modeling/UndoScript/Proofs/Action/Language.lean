/-
# What actions yield

What an action can emit is read off its tree of draws, action by action: a
keyword with a number of its range, a text of the document, a word. The depth
of an undo goes up to the root of what was counted, which Newton's iteration
finds, and the clipboard's turn is the one that `Turn` has for what is
remembered.

Key theorems: `squareRoot_eq`, `Turn.iff_of_selecting`, `Turn.iff_of_idle`,
`Document.yields_drawFragment`, `Action.yields_clipboard`.
-/
import Mathlib.Data.Fin.Basic
import UndoScript.Session.Parts
import UndoScript.Proofs.Action.Emission
import UndoScript.Proofs.Document.Piece

namespace UndoScript

/-! ### The depth of an undo -/

theorem SquareRoot.descend_eq (n guess : Nat) : descend n guess = Nat.sqrt.iter n guess := by
  fun_induction descend n guess with
  | case1 guess next h ih =>
    rw [ih, Nat.sqrt.iter.eq_def n guess]
    dsimp only
    rw [dif_pos h]
  | case2 guess next h =>
    rw [Nat.sqrt.iter.eq_def]
    dsimp only
    rw [dif_neg h]

/-- Newton's iteration comes to the root, rounded down. -/
theorem squareRoot_eq (n : Nat) : squareRoot n = Nat.sqrt n := by
  simp only [squareRoot, Nat.sqrt, SquareRoot.descend_eq]

/-! ### Turns, by what is remembered -/

theorem Turn.iff_of_selecting {m m' : Memory} {g : List Phrase} (h : m.selecting = true) :
    Turn m g m' ↔
      ((g = [(.copy, .absent)] ∨ g = [(.cut, .absent)]) ∧
        m' = { m with selecting := false, clipboardFull := true }) ∨
      ((g = [(.erase, .absent)] ∨ g = [(.through, .bare "sort")]) ∧
        m' = { m with selecting := false }) := by
  constructor
  · intro ht
    cases ht <;> simp_all
  · rintro (⟨rfl | rfl, rfl⟩ | ⟨rfl | rfl, rfl⟩)
    · exact .copy h
    · exact .cut h
    · exact .erase h
    · exact .sort h

theorem Turn.iff_of_idle {m m' : Memory} {g : List Phrase} (h : m.selecting = false) :
    Turn m g m' ↔
      (m.clipboardFull = true ∧ (g = [(.paste, .absent)] ∨ g = [(.pasteVert, .absent)]) ∧
        m' = { m with clipboardFull := false }) ∨
      (m.clipboardFull = false ∧ (g = [(.mark, .absent)] ∨ g = [(.markVert, .absent)]) ∧
        m' = { m with selecting := true }) ∨
      (g = [] ∧ m' = m) := by
  constructor
  · intro ht
    cases ht with
    | paste hk _ hfull => rcases hk with rfl | rfl <;> simp [hfull]
    | mark hk _ hfull => rcases hk with rfl | rfl <;> simp [hfull]
    | rest => simp
    | _ => simp_all
  · rintro (⟨hfull, rfl | rfl, rfl⟩ | ⟨hfull, rfl | rfl, rfl⟩ | ⟨rfl, rfl⟩)
    · exact .paste (Or.inl rfl) h hfull
    · exact .paste (Or.inr rfl) h hfull
    · exact .mark (Or.inl rfl) h hfull
    · exact .mark (Or.inr rfl) h hfull
    · exact .rest h

/-! ### Text from the document -/

namespace Document

open Sampler

theorem mem_contents_iff {d : Document} {t : Text} : t ∈ d.contents ↔ d.IsContent t := by
  rw [d.contents_eq]
  simp only [List.mem_filter, List.mem_map, IsContent, Bool.not_eq_true', List.isEmpty_eq_false_iff]
  exact and_comm

theorem hasContent_iff {d : Document} : d.hasContent = true ↔ ∃ t, d.IsContent t := by
  simp only [← mem_contents_iff, hasContent, Bool.not_eq_true', List.isEmpty_eq_false_iff_exists_mem]

theorem hasContent_eq_false_iff {d : Document} :
    d.hasContent = false ↔ ∀ line ∈ d.lines, line.content = [] := by
  rw [← Bool.not_eq_true, hasContent_iff]
  constructor
  · intro h line hline
    by_contra hne
    exact h ⟨line.content, hne, line, hline, rfl⟩
  · rintro h ⟨t, hne, line, hline, rfl⟩
    exact hne (h line hline)

@[simp] theorem yields_drawContent {d : Document} {t : Text} :
    d.drawContent.Yields t ↔ d.IsContent t := by
  rw [← mem_contents_iff]
  unfold drawContent
  split
  · next h => simp [List.isEmpty_iff.1 h]
  · simp

@[simp] theorem fails_drawContent {d : Document} {f : Fault} :
    d.drawContent.Fails f ↔ d.hasContent = false ∧ f = .documentEmpty := by
  unfold drawContent hasContent
  split
  · next h => simp [h]
  · next h => simp_all

@[simp] theorem yields_drawPiece {line t : Text} :
    (drawPiece line).Yields t ↔ line ≠ [] ∧ IsPiece line t := by
  unfold drawPiece
  split
  · next h => simp [List.isEmpty_iff.1 h]
  · next h =>
    have hne : line ≠ [] := fun he => h (List.isEmpty_iff.2 he)
    simp only [yields_bind, yields_drawFrom, yields_pure, IsPiece]
    grind

@[simp] theorem fails_drawPiece {line : Text} {f : Fault} :
    (drawPiece line).Fails f ↔ line = [] ∧ f = .broken .emptyLineSampled := by
  unfold drawPiece
  split
  · next h => simp [List.isEmpty_iff.1 h]
  · next h =>
    have hne : line ≠ [] := fun he => h (List.isEmpty_iff.2 he)
    have hhalf : max 1 (line.length / 2) ≠ 0 := by omega
    simp [hne, hhalf]

@[simp] theorem yields_drawFragment {d : Document} {t : Text} :
    d.drawFragment.Yields t ↔ d.IsFragment t := by
  simp only [drawFragment, yields_bind, yields_drawContent, yields_drawPiece, IsFragment]
  constructor
  · rintro ⟨line, hline, -, hpiece⟩
    exact ⟨line, hline, hpiece⟩
  · rintro ⟨line, hline, hpiece⟩
    exact ⟨line, hline, hline.1, hpiece⟩

@[simp] theorem fails_drawFragment {d : Document} {f : Fault} :
    d.drawFragment.Fails f ↔ d.hasContent = false ∧ f = .documentEmpty := by
  simp only [drawFragment, fails_bind, fails_drawContent, yields_drawContent, fails_drawPiece,
    or_iff_left_iff_imp]
  rintro ⟨line, hline, hempty, -⟩
  exact absurd hempty hline.1

end Document

theorem isPiece_iff {line t : Text} : IsPiece line t ↔ ∃ p : Cut line, t = p.text := by
  constructor
  · rintro ⟨start, length, hstart, hpos, hlength, rfl⟩
    exact ⟨⟨start, length, hstart, hpos, hlength⟩, rfl⟩
  · rintro ⟨p, rfl⟩
    exact ⟨p.start, p.length, p.start_lt, p.one_le, p.length_le, rfl⟩

theorem IsPiece.isInfix {line t : Text} (h : IsPiece line t) : t <:+: line := by
  obtain ⟨p, rfl⟩ := isPiece_iff.1 h
  exact p.isInfix

theorem IsPiece.ne_nil {line t : Text} (hline : line ≠ []) (h : IsPiece line t) : t ≠ [] := by
  obtain ⟨p, rfl⟩ := isPiece_iff.1 h
  exact p.text_ne_nil hline

/-- A fragment is a piece of a line's content and not empty. -/
theorem Document.IsFragment.exists_content {d : Document} {t : Text} (h : d.IsFragment t) :
    t ≠ [] ∧ ∃ line, d.IsContent line ∧ t <:+: line := by
  obtain ⟨line, hline, hpiece⟩ := h
  exact ⟨hpiece.ne_nil hline.1, line, hline, hpiece.isInfix⟩

/-! ### What each action yields -/

namespace Action

open Sampler

variable {s : Setting} {m m' : Memory} {cs : List Command} {o : Options} {c : Category}
  {k : Keyword}

theorem map_phrase_eq_one {p : Phrase} :
    cs.map Command.phrase = [p] ↔ ∃ c, cs = [c] ∧ c.phrase = p := by
  simp [List.map_eq_cons_iff]

theorem map_phrase_eq_two {p q : Phrase} : cs.map Command.phrase = [p, q] ↔
    ∃ c d, cs = [c, d] ∧ c.phrase = p ∧ d.phrase = q := by
  rw [List.map_eq_cons_iff]
  simp only [map_phrase_eq_one]
  grind

theorem map_phrase_eq_plain : cs.map Command.phrase = [(k, .absent)] ↔ cs = [.plain k] := by
  rw [← Command.phrase_plain, map_phrase_eq_one]
  simp only [Command.phrase_inj, exists_eq_right]

theorem yields_plain : (perform s m (.plain k)).Yields (cs, m') ↔
    cs.map Command.phrase = [(k, .absent)] ∧ m' = m := by
  rw [map_phrase_eq_plain]
  simp only [perform, yields_pure, Prod.mk.injEq]

theorem yields_counted {low count : Nat} : (perform s m (.counted k low count)).Yields (cs, m') ↔
    ∃ n : Nat, (low ≤ n ∧ n < low + count) ∧
      cs.map Command.phrase = [(k, .number n)] ∧ m' = m := by
  simp only [perform, yields_bind, yields_drawFrom, yields_liftM, Command.number_eq_ok_iff,
    yields_pure, Prod.mk.injEq, map_phrase_eq_one]
  grind

theorem yields_token {t : String} : (perform s m (.token k t)).Yields (cs, m') ↔
    (Text.ofString t).isSturdy = true ∧ cs.map Command.phrase = [(k, .bare t)] ∧ m' = m := by
  simp only [perform, yields_bind, yields_liftM, Command.token_eq_ok_iff, yields_pure,
    Prod.mk.injEq, map_phrase_eq_one]
  grind

theorem yields_wordMotion : (perform s m (.wordMotion k)).Yields (cs, m') ↔
    ∃ n ≤ 19, cs.map Command.phrase = [(k, .bare (Numeral.digits n))] ∧ m' = m := by
  have hsturdy (n : Nat) := (Numeral.isWord_digits n).isSturdy
  simp only [perform, yields_bind, yields_drawFrom, yields_liftM, Command.token_eq_ok_iff,
    yields_pure, Prod.mk.injEq, map_phrase_eq_one, hsturdy]
  grind

theorem yields_gotoLine : (perform s m .gotoLine).Yields (cs, m') ↔
    ∃ n : Nat, (1 ≤ n ∧ n ≤ max 1 s.document.lines.length) ∧
      cs.map Command.phrase = [(.gotoLine, .number n)] ∧ m' = m := by
  simp only [perform, yields_bind, yields_drawFrom, yields_liftM, Command.number_eq_ok_iff,
    yields_pure, Prod.mk.injEq, map_phrase_eq_one]
  grind

theorem yields_adjustView : (perform s m .adjustView).Yields (cs, m') ↔
    ∃ height ∈ ["T", "M", "B"], ∃ side ∈ ["L", "C", "R"], cs.map Command.phrase =
      [(.adjustView, .bare (Text.ofString height ++ Text.ofString side))] ∧ m' = m := by
  have hsturdy := fun height hheight side hside =>
    (Emission.isWord_view height hheight side hside).isSturdy
  simp only [perform, yields_bind, yields_choose, yields_liftM, Command.token_eq_ok_iff,
    yields_pure, Prod.mk.injEq, map_phrase_eq_one, Text.concat_cons, Text.concat_nil,
    List.append_nil]
  grind

theorem yields_shift : (perform s m .shift).Yields (cs, m') ↔
    ∃ direction ∈ ["<", ">"], ∃ n ≤ 19, ∃ unit ∈ ["t", "s"], cs.map Command.phrase =
      [(.shift, .bare (Text.ofString direction ++ Numeral.digits n ++ Text.ofString unit))] ∧
      m' = m := by
  have hsturdy := fun direction unit n hd hu =>
    (@Emission.isWord_shift direction unit n hd hu).isSturdy
  simp only [perform, yields_bind, yields_choose, yields_drawFrom, yields_liftM,
    Command.token_eq_ok_iff, yields_pure, Prod.mk.injEq, map_phrase_eq_one, Text.concat_cons,
    Text.concat_nil, List.append_nil, ← List.append_assoc]
  grind

/-- The name of the target's syntax is its extension or a star. -/
theorem syntaxName_iff {t : Text} : (∃ choice : Fin 2,
      (if choice = 0 then Text.ofString "*" else (Path.extension? s.target).getD "*") = t) ↔
    t = Text.ofString "*" ∨ Path.HasExtension s.target t := by
  rw [Fin.exists_fin_two, ← Path.extension?_eq_some_iff]
  cases Path.extension? s.target <;> simp [eq_comm]

theorem isWord_syntaxName {t : Text}
    (h : t = Text.ofString "*" ∨ Path.HasExtension s.target t) : t.IsWord := by
  rcases h with rfl | h
  · decide
  · exact h.isWord

theorem yields_setSyntax : (perform s m .setSyntax).Yields (cs, m') ↔
    ∃ t, (t = Text.ofString "*" ∨ Path.HasExtension s.target t) ∧
      cs.map Command.phrase = [(.setSyntax, .bare t)] ∧ m' = m := by
  simp only [perform, yields_bind, yields_draw, yields_liftM, Command.token_eq_ok_iff, yields_pure,
    Prod.mk.injEq, map_phrase_eq_one, true_and]
  constructor
  · rintro ⟨choice, c, ⟨-, hc⟩, rfl, rfl⟩
    exact ⟨_, syntaxName_iff.1 ⟨choice, rfl⟩, ⟨c, rfl, hc⟩, rfl⟩
  · rintro ⟨t, ht, ⟨c, rfl, hc⟩, rfl⟩
    have hsturdy := (isWord_syntaxName ht).isSturdy
    obtain ⟨choice, rfl⟩ := syntaxName_iff.2 ht
    exact ⟨choice, c, ⟨hsturdy, hc⟩, rfl, rfl⟩

theorem yields_insertString : (perform s m .insertString).Yields (cs, m') ↔
    ∃ t, s.document.IsContent t ∧
      cs.map Command.phrase = [(.insertString, .quoted t)] ∧ m' = m := by
  simp only [perform, yields_bind, Document.yields_drawContent, yields_liftM,
    Command.string_eq_ok_iff, yields_pure, Prod.mk.injEq, map_phrase_eq_one]
  grind

theorem yields_replacement {c : Command} : (replacement s).Yields c ↔
    ∃ k u, s.options.Replaces k ∧ s.document.IsFragment u ∧ c.phrase = (k, .quoted u) := by
  unfold replacement Options.Replaces
  cases s.options.replaceAll with
  | true =>
    simp [Command.string_eq_ok_iff]
    grind
  | false =>
    simp [Command.string_eq_ok_iff]

theorem yields_replaceFound : (perform s m .replaceFound).Yields (cs, m') ↔
    ∃ t k u, s.document.IsFragment t ∧ s.document.IsFragment u ∧ s.options.Replaces k ∧
      cs.map Command.phrase = [(.find, .quoted t), (k, .quoted u)] ∧ m' = m := by
  simp only [perform, yields_bind, Document.yields_drawFragment, yields_replacement, yields_liftM,
    Command.string_eq_ok_iff, yields_pure, Prod.mk.injEq, map_phrase_eq_two]
  grind

theorem replacePatterns_eq : replacePatterns = Emission.patterns := rfl

theorem yields_replaceMatch : (perform s m .replaceMatch).Yields (cs, m') ↔
    ∃ p ∈ Emission.patterns, ∃ k u, s.document.IsFragment u ∧ s.options.Replaces k ∧
      cs.map Command.phrase = [(.findRegexp, .bare p), (k, .quoted u)] ∧ m' = m := by
  have hsturdy := fun p hp => (Emission.isWord_pattern p hp).isSturdy
  simp only [perform, yields_bind, yields_choose, replacePatterns_eq, yields_replacement,
    yields_liftM, Command.token_eq_ok_iff, yields_pure, Prod.mk.injEq, map_phrase_eq_two]
  grind

theorem yields_undoThenRedo : (perform s m .undoThenRedo).Yields (cs, m') ↔
    0 ≤ m.mutations ∧ ∃ depth : Nat, depth ≤ Nat.sqrt m.mutations.toNat ∧
      cs.map Command.phrase = [(.undo, .number depth), (.redo, .number depth)] ∧ m' = m := by
  simp only [perform, Memory.undoBound, yields_bind, yields_drawFrom, yields_liftM,
    Command.number_eq_ok_iff, yields_pure, Prod.mk.injEq, map_phrase_eq_two, squareRoot_eq]
  split <;> grind

theorem exists_fin_four {p : Fin 4 → Prop} : (∃ i, p i) ↔ p 0 ∨ p 1 ∨ p 2 ∨ p 3 := by
  simp [Fin.exists_fin_succ]

theorem yields_clipboard :
    (perform s m .clipboard).Yields (cs, m') ↔ Turn m (cs.map Command.phrase) m' := by
  have hsort : (Text.ofString "sort").isSturdy = true := by decide
  unfold perform clipboardTurn
  cases hsel : m.selecting with
  | true =>
    rw [Turn.iff_of_selecting hsel]
    simp only [map_phrase_eq_plain]
    rw [map_phrase_eq_one]
    simp [exists_fin_four, Memory.closeSelection, hsel, Command.token_eq_ok_iff, hsort]
    grind
  | false =>
    rw [Turn.iff_of_idle hsel]
    simp only [map_phrase_eq_plain]
    cases hfull : m.clipboardFull with
    | true =>
      simp [exists_fin_four, Memory.paste, hsel, hfull]
      grind
    | false =>
      simp [exists_fin_four, Memory.openSelection, hsel, hfull]
      grind

end Action
end UndoScript

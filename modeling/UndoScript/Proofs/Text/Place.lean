/-
# Where a line stands in a text

The pieces of a text are the one list of texts without line feeds that gives
the text with line feeds between them. Each stands somewhere in the text: after
nothing or a line feed, and before nothing or a line feed. What precedes it is
the pieces before it, each with its line feed, so it has as many line feeds as
there are pieces before.

Key definitions: `Text.IsLineAfter`.
Key theorems: `Text.eq_pieces_iff`, `Text.isLineAfter_iff`,
`Text.count_newline_ofLines`.
-/
import UndoScript.Proofs.Text.Pieces

namespace UndoScript
namespace Text

variable {text before line : Text} {ls : List Text}

/-- The line stands in the text right after `before`: from the start or a line feed to the next line
feed or the end. -/
def IsLineAfter (text before line : Text) : Prop :=
  ∃ after, text = before ++ line ++ after ∧ .newline ∉ line ∧
    (before = [] ∨ before.getLast? = some .newline) ∧ (after = [] ∨ after.head? = some .newline)

/-! ### Pieces and lines -/

theorem pieces_ne_nil (text : Text) : pieces text ≠ [] := by
  rcases exists_first_line text with hnone | ⟨l, rest, hl, rfl⟩
  · rw [pieces_of_not_mem hnone]
    exact List.cons_ne_nil _ _
  · rw [pieces_append_newline rest hl]
    exact List.cons_ne_nil _ _

/-- The pieces with line feeds between them are the text. -/
theorem joined_pieces (text : Text) : joined [.newline] (pieces text) = text := by
  rcases exists_first_line text with hnone | ⟨l, rest, hl, rfl⟩
  · rw [pieces_of_not_mem hnone, joined_singleton]
  · have ih := joined_pieces rest
    obtain ⟨p, ps, hps⟩ := List.exists_cons_of_ne_nil (pieces_ne_nil rest)
    rw [hps] at ih
    rw [pieces_append_newline rest hl, hps, joined_cons_cons, ih, List.singleton_append]
termination_by text.length

/-- **A text has one list of pieces.** -/
theorem eq_pieces_iff : ls = pieces text ↔
    ls ≠ [] ∧ (∀ l ∈ ls, .newline ∉ l) ∧ joined [.newline] ls = text := by
  constructor
  · rintro rfl
    exact ⟨pieces_ne_nil text, fun l hl => newline_not_mem_of_mem_pieces hl, joined_pieces text⟩
  · rintro ⟨hne, hls, rfl⟩
    exact (pieces_joined hne hls).symm

theorem joined_append (l : Text) (ls : List Text) : ∀ ks : List Text,
    joined [.newline] (ks ++ l :: ls) = ofLines ks ++ joined [.newline] (l :: ls)
  | [] => rfl
  | [k] => by
    rw [List.singleton_append, joined_cons_cons]
    simp [ofLines]
  | k :: k' :: ks => by
    rw [List.cons_append, List.cons_append, joined_cons_cons, ← List.cons_append,
      joined_append l ls (k' :: ks), ofLines_cons k]
    simp

/-- There are as many line feeds as lines. -/
theorem count_newline_ofLines : ∀ {ls : List Text}, (∀ l ∈ ls, .newline ∉ l) →
    (ofLines ls).count .newline = ls.length
  | [], _ => rfl
  | l :: ls, h => by
    have hls : ∀ k ∈ ls, .newline ∉ k := fun k hk => h k (List.mem_cons_of_mem l hk)
    rw [ofLines_cons, List.count_append, List.count_eq_zero_of_not_mem (h l List.mem_cons_self),
      List.count_cons_self, count_newline_ofLines hls, List.length_cons, Nat.zero_add]

/-- What is empty or ends with a line feed is whole lines. -/
theorem exists_ofLines {t : Text} (h : t = [] ∨ t.getLast? = some .newline) :
    ∃ ls, (∀ l ∈ ls, Glyph.newline ∉ l) ∧ t = ofLines ls := by
  rcases exists_first_line t with hnone | ⟨l, rest, hl, rfl⟩
  · obtain rfl : t = [] := h.resolve_right fun hlast => hnone (List.mem_of_getLast? hlast)
    exact ⟨[], by simp, rfl⟩
  · have hrest : rest = [] ∨ rest.getLast? = some .newline := by
      cases rest with
      | nil => exact .inl rfl
      | cons g more => exact .inr (by simpa using h)
    obtain ⟨ls, hls, rfl⟩ := exists_ofLines hrest
    exact ⟨l :: ls, by simpa using ⟨hl, hls⟩, (ofLines_cons l ls).symm⟩
termination_by t.length

theorem ofLines_ends (ls : List Text) :
    ofLines ls = [] ∨ (ofLines ls).getLast? = some .newline := by
  rcases List.eq_nil_or_concat ls with rfl | ⟨ks, l, rfl⟩
  · exact .inl rfl
  · right
    simp [ofLines]

/-! ### The place of a piece -/

/-- **The lines that stand in a text are its pieces,** after the pieces before them. -/
theorem isLineAfter_iff : IsLineAfter text before line ↔
    ∃ ks ls, pieces text = ks ++ line :: ls ∧ before = ofLines ks := by
  constructor
  · rintro ⟨after, rfl, hline, hbefore, hafter⟩
    obtain ⟨ks, hks, rfl⟩ := exists_ofLines hbefore
    rw [List.append_assoc, pieces_ofLines_append _ hks]
    rcases hafter with rfl | hafter
    · exact ⟨ks, [], by rw [List.append_nil, pieces_of_not_mem hline], rfl⟩
    · obtain ⟨rest, rfl⟩ := List.head?_eq_some_iff.1 hafter
      exact ⟨ks, pieces rest, by rw [pieces_append_newline rest hline], rfl⟩
  · rintro ⟨ks, ls, hpieces, rfl⟩
    have hline : Glyph.newline ∉ line := newline_not_mem_of_mem_pieces (by rw [hpieces]; simp)
    have htext : text = ofLines ks ++ joined [.newline] (line :: ls) := by
      rw [← joined_pieces text, hpieces, joined_append]
    cases ls with
    | nil =>
      rw [joined_singleton] at htext
      exact ⟨[], by rw [htext, List.append_nil], hline, ofLines_ends ks, .inl rfl⟩
    | cons l ls =>
      rw [joined_cons_cons, List.singleton_append, ← List.append_assoc] at htext
      exact ⟨_, htext, hline, ofLines_ends ks, .inr List.head?_cons⟩

end Text
end UndoScript

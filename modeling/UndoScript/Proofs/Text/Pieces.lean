/-
# What is between line feeds

Texts without line feeds, joined by line feeds, are read back as the pieces
between them; with a last line feed there is one empty piece more.

Key theorems: `Text.pieces_joined`, `Text.pieces_ofLines`.
-/
import UndoScript.Text.Lines
import UndoScript.CommandLine.Journal

namespace UndoScript
namespace Text

/-- A text has no line feed, or it starts with what precedes its first one. -/
theorem exists_first_line (text : Text) : Glyph.newline ∉ text ∨
    ∃ l rest, Glyph.newline ∉ l ∧ text = l ++ .newline :: rest := by
  by_cases h : Glyph.newline ∈ text
  · obtain ⟨l, rest, htext, hl⟩ := List.eq_append_cons_of_mem h
    exact .inr ⟨l, rest, hl, htext⟩
  · exact .inl h

/-- What precedes a line feed is a piece. -/
theorem pieces_append_newline (rest : Text) : ∀ {l : Text}, Glyph.newline ∉ l →
    pieces (l ++ .newline :: rest) = l :: pieces rest
  | [], _ => pieces_newline_cons rest
  | g :: l, h => by
    have hg : g ≠ .newline := fun he => h (he ▸ List.mem_cons_self)
    have hl : Glyph.newline ∉ l := fun hmem => h (List.mem_cons_of_mem g hmem)
    rw [List.cons_append, pieces_cons hg, pieces_append_newline rest hl]
    rfl

/-- A text without line feeds is its one piece. -/
theorem pieces_of_not_mem : ∀ {l : Text}, Glyph.newline ∉ l → pieces l = [l]
  | [], _ => pieces_nil
  | g :: l, h => by
    have hg : g ≠ .newline := fun he => h (he ▸ List.mem_cons_self)
    have hl : Glyph.newline ∉ l := fun hmem => h (List.mem_cons_of_mem g hmem)
    rw [pieces_cons hg, pieces_of_not_mem hl]
    rfl

/-- A piece has no line feed. -/
theorem newline_not_mem_of_mem_pieces {text p : Text} (h : p ∈ pieces text) :
    Glyph.newline ∉ p := by
  rcases exists_first_line text with hnone | ⟨l, rest, hl, rfl⟩
  · rw [pieces_of_not_mem hnone, List.mem_singleton] at h
    rwa [h]
  · rw [pieces_append_newline rest hl, List.mem_cons] at h
    rcases h with rfl | h
    · exact hl
    · exact newline_not_mem_of_mem_pieces h
termination_by text.length

theorem joined_singleton (separator l : Text) : joined separator [l] = l := by
  simp [joined]

theorem joined_cons_cons (separator l l' : Text) (ls : List Text) :
    joined separator (l :: l' :: ls) = l ++ (separator ++ joined separator (l' :: ls)) := by
  simp [joined]

/-- Lines with line feeds between them are read back. -/
theorem pieces_joined : ∀ {ls : List Text}, ls ≠ [] → (∀ l ∈ ls, Glyph.newline ∉ l) →
    pieces (joined [.newline] ls) = ls
  | [l], _, h => by
    rw [joined_singleton, pieces_of_not_mem (h l List.mem_cons_self)]
  | l :: l' :: ls, _, h => by
    have hl : Glyph.newline ∉ l := h l List.mem_cons_self
    have hls : ∀ k ∈ l' :: ls, Glyph.newline ∉ k := fun k hk => h k (List.mem_cons_of_mem l hk)
    rw [joined_cons_cons, List.singleton_append, pieces_append_newline _ hl,
      pieces_joined (List.cons_ne_nil l' ls) hls]

theorem ofLines_cons (l : Text) (ls : List Text) :
    ofLines (l :: ls) = l ++ .newline :: ofLines ls := by
  simp [ofLines]

/-- Lines that each end with a line feed are pieces, whatever follows them. -/
theorem pieces_ofLines_append (rest : Text) : ∀ {ls : List Text}, (∀ l ∈ ls, .newline ∉ l) →
    pieces (ofLines ls ++ rest) = ls ++ pieces rest
  | [], _ => rfl
  | l :: ls, h => by
    have hls : ∀ k ∈ ls, .newline ∉ k := fun k hk => h k (List.mem_cons_of_mem l hk)
    rw [ofLines_cons, List.append_assoc, List.cons_append,
      pieces_append_newline _ (h l List.mem_cons_self), pieces_ofLines_append rest hls,
      List.cons_append]

/-- Lines that each end with a line feed are read back, with an empty piece after them. -/
theorem pieces_ofLines {ls : List Text} (h : ∀ l ∈ ls, Glyph.newline ∉ l) :
    pieces (ofLines ls) = ls ++ [[]] := by
  have hpieces := pieces_ofLines_append [] h
  rwa [List.append_nil, pieces_nil] at hpieces

/-- A line feed after the last line makes all lines end with one. -/
theorem joined_append_newline : ∀ {ls : List Text}, ls ≠ [] →
    joined [.newline] ls ++ [.newline] = ofLines ls
  | [l], _ => by
    rw [joined_singleton]
    simp [ofLines]
  | l :: l' :: ls, _ => by
    rw [joined_cons_cons, List.append_assoc, List.append_assoc,
      joined_append_newline (List.cons_ne_nil l' ls)]
    simp [ofLines]

end Text
end UndoScript

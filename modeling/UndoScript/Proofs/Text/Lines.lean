/-
# A text is cut into lines in one way

The lines of a text are not empty and give the text when they are set one after
the other. Each but the last ends with a line feed, and none has a line feed
elsewhere. No other list is like that, so whoever cuts the text by these rules
finds the same lines. There are as many as there are line feeds, and one more
if something follows the last of them. The content of a line has no line feed.

Key definitions: `Text.AreLines`.
Key theorems: `Text.lines_ofLines`, `Text.lines_flatten`, `Text.areLines_lines`,
`Text.length_lines`, `Text.newline_not_mem_content`.
-/
import UndoScript.Proofs.Text.Pieces

namespace UndoScript
namespace Text

/-- Lines as a text has them: something in each, a line feed at the end of each but perhaps the
last, and none before. -/
structure AreLines (ls : List Text) : Prop where
  ne_nil : ∀ l ∈ ls, l ≠ []
  ended : ∀ l ∈ ls.dropLast, l.getLast? = some .newline
  solid : ∀ l ∈ ls, .newline ∉ l.dropLast

variable {l : Text} {ls : List Text}

/-! ### One line after the other -/

theorem areLines_nil : AreLines [] := ⟨by simp, by simp, by simp⟩

/-- A line that ends with a line feed may stand before any others, -/
theorem areLines_cons_of_ended (hsolid : Glyph.newline ∉ l) :
    AreLines ((l ++ [.newline]) :: ls) ↔ AreLines ls := by
  constructor
  · rintro ⟨hne, hended, hls⟩
    refine ⟨fun k hk => hne k (List.mem_cons_of_mem _ hk), fun k hk => hended k ?_,
      fun k hk => hls k (List.mem_cons_of_mem _ hk)⟩
    have hnil : ls ≠ [] := List.ne_nil_of_mem ((List.dropLast_sublist ls).subset hk)
    rw [List.dropLast_cons_of_ne_nil hnil]
    exact List.mem_cons_of_mem _ hk
  · rintro ⟨hne, hended, hls⟩
    refine ⟨by simpa using hne, fun k hk => ?_, by simpa using ⟨hsolid, hls⟩⟩
    by_cases hnil : ls = []
    · simp [hnil] at hk
    · rw [List.dropLast_cons_of_ne_nil hnil, List.mem_cons] at hk
      rcases hk with rfl | hk
      · exact List.getLast?_concat
      · exact hended k hk

/-- and one without a line feed only at the end. -/
theorem areLines_cons_of_not_mem (hl : Glyph.newline ∉ l) :
    AreLines (l :: ls) ↔ l ≠ [] ∧ ls = [] := by
  constructor
  · rintro ⟨hne, hended, -⟩
    refine ⟨hne l List.mem_cons_self, ?_⟩
    cases ls with
    | nil => rfl
    | cons k ks =>
      rw [List.dropLast_cons_of_ne_nil (List.cons_ne_nil k ks)] at hended
      exact absurd (List.mem_of_getLast? (hended l List.mem_cons_self)) hl
  · rintro ⟨hne, rfl⟩
    have hsolid : Glyph.newline ∉ l.dropLast := fun h => hl ((List.dropLast_sublist l).subset h)
    exact ⟨by simpa using hne, by simp, by simpa using hsolid⟩

/-- Such a line is a body with a line feed after it, or a body alone. -/
theorem AreLines.exists_body (h : AreLines ls) (hl : l ∈ ls) :
    ∃ body, Glyph.newline ∉ body ∧ (l = body ++ [.newline] ∨ l = body) := by
  have hne := h.ne_nil l hl
  have hsolid := h.solid l hl
  have hsplit : l.dropLast ++ [l.getLast hne] = l := List.dropLast_concat_getLast hne
  by_cases hlast : l.getLast hne = .newline
  · exact ⟨l.dropLast, hsolid, .inl (by rw [← hlast, hsplit])⟩
  · refine ⟨l, fun hmem => ?_, .inr rfl⟩
    rw [← hsplit, List.mem_append, List.mem_singleton] at hmem
    rcases hmem with hmem | hmem
    · exact hsolid hmem
    · exact hlast hmem.symm

/-! ### Cutting and joining -/

/-- What precedes a line feed is a line with it. -/
theorem lines_append_newline (rest : Text) : ∀ {l : Text}, Glyph.newline ∉ l →
    lines (l ++ .newline :: rest) = (l ++ [.newline]) :: lines rest
  | [], _ => lines_newline_cons rest
  | g :: l, h => by
    have hg : g ≠ .newline := fun he => h (he ▸ List.mem_cons_self)
    have hl : Glyph.newline ∉ l := fun hmem => h (List.mem_cons_of_mem g hmem)
    rw [List.cons_append, lines_cons hg, lines_append_newline rest hl]
    rfl

/-- Lines that each end with a line feed are the lines of their text. -/
theorem lines_ofLines : ∀ {ls : List Text}, (∀ l ∈ ls, Glyph.newline ∉ l) →
    lines (ofLines ls) = ls.map (· ++ [.newline])
  | [], _ => rfl
  | l :: ls, h => by
    have hl : Glyph.newline ∉ l := h l List.mem_cons_self
    have hls : ∀ k ∈ ls, Glyph.newline ∉ k := fun k hk => h k (List.mem_cons_of_mem l hk)
    rw [ofLines, List.flatMap_cons, List.append_assoc, List.singleton_append,
      lines_append_newline _ hl]
    show _ :: lines (ofLines ls) = _
    rw [lines_ofLines hls, List.map_cons]

theorem lines_of_not_mem : ∀ {l : Text}, l ≠ [] → Glyph.newline ∉ l → lines l = [l]
  | g :: rest, _, h => by
    have hg : g ≠ .newline := fun he => h (he ▸ List.mem_cons_self)
    have hrest : Glyph.newline ∉ rest := fun hmem => h (List.mem_cons_of_mem g hmem)
    rw [lines_cons hg]
    by_cases hnil : rest = []
    · rw [hnil]
      rfl
    · rw [lines_of_not_mem hnil hrest]
      rfl

/-- **Lines set one after the other are the lines of their text.** -/
theorem lines_flatten : ∀ {ls : List Text}, AreLines ls → lines ls.flatten = ls
  | [], _ => rfl
  | l :: ls, h => by
    obtain ⟨body, hbody, rfl | rfl⟩ := h.exists_body List.mem_cons_self
    · rw [List.flatten_cons, List.append_assoc, List.singleton_append,
        lines_append_newline _ hbody, lines_flatten ((areLines_cons_of_ended hbody).1 h)]
    · obtain ⟨hne, rfl⟩ := (areLines_cons_of_not_mem hbody).1 h
      rw [List.flatten_singleton, lines_of_not_mem hne hbody]

/-- **The lines of a text are as lines are.** -/
theorem areLines_lines (text : Text) : AreLines (lines text) := by
  rcases exists_first_line text with hnone | ⟨l, rest, hl, rfl⟩
  · by_cases hnil : text = []
    · rw [hnil]
      exact areLines_nil
    · rw [lines_of_not_mem hnil hnone]
      exact (areLines_cons_of_not_mem hnone).2 ⟨hnil, rfl⟩
  · rw [lines_append_newline rest hl]
    exact (areLines_cons_of_ended hl).2 (areLines_lines rest)
termination_by text.length

/-- **There are as many lines as line feeds,** and one more if something follows the last one. -/
theorem length_lines (text : Text) : (lines text).length =
    text.count .newline + if text ≠ [] ∧ text.getLast? ≠ some .newline then 1 else 0 := by
  rcases exists_first_line text with hnone | ⟨l, rest, hl, rfl⟩
  · rw [List.count_eq_zero_of_not_mem hnone]
    by_cases hnil : text = []
    · rw [hnil]
      rfl
    · have hlast : text.getLast? ≠ some .newline := fun h => hnone (List.mem_of_getLast? h)
      rw [lines_of_not_mem hnil hnone, if_pos ⟨hnil, hlast⟩]
      rfl
  · have hlast : (l ++ .newline :: rest ≠ [] ∧ (l ++ .newline :: rest).getLast? ≠ some .newline) ↔
        rest ≠ [] ∧ rest.getLast? ≠ some .newline := by
      cases rest <;> simp
    rw [lines_append_newline rest hl, List.length_cons, length_lines rest, List.count_append,
      List.count_eq_zero_of_not_mem hl, List.count_cons_self]
    simp only [hlast]
    omega
termination_by text.length

/-! ### Contents -/

theorem content_isPrefix (line : Text) : content line <+: line := by
  unfold content
  split
  · exact (List.dropLast_prefix _).trans (List.dropLast_prefix _)
  · split
    · exact List.dropLast_prefix _
    · exact List.prefix_rfl

theorem content_append_newline_isPrefix (body : Text) : content (body ++ [.newline]) <+: body := by
  unfold content
  split
  · rw [List.dropLast_concat]
    exact List.dropLast_prefix _
  · rw [if_pos (by simp)]
    simp

/-- **The content of a line has no line feed.** -/
theorem newline_not_mem_content {text line : Text} (h : line ∈ lines text) :
    Glyph.newline ∉ content line := by
  obtain ⟨body, hbody, rfl | rfl⟩ := (areLines_lines text).exists_body h
  · exact fun hmem => hbody ((content_append_newline_isPrefix body).subset hmem)
  · exact fun hmem => hbody ((content_isPrefix line).subset hmem)

end Text
end UndoScript

/-
# How a line is laid out

A line is an indent, a first word, and a rest that a space and perhaps more
indent keep off the word; line feeds may end it. Every line can be laid out
like this, and in one way only: its parts are what reading finds. So a line
spells a keyword and a rest, or no keyword at all.

Key definitions: `Layout`, `Command.Spells`.
Key theorems: `Layout.exists_layout`, `Layout.firstWord_eq`,
`Layout.afterFirstWord_eq`, `Command.spells_iff`, `Command.read_of_spells`,
`Command.read_of_not_spells`.
-/
import Mathlib.Data.List.TakeWhile
import UndoScript.Proofs.Text.Ink

namespace UndoScript

namespace Text

variable {p : Glyph → Bool} {t u : Text}

/-- What is left after trimming starts with a glyph of another class. -/
theorem head?_trimStart {g : Glyph} (h : (trimStart p t).head? = some g) : p g = false := by
  have hhead := List.head?_dropWhile_not p t
  rw [show t.dropWhile p = trimStart p t from rfl, h] at hhead
  simpa using hhead

/-- Glyphs of the class are trimmed off the start. -/
theorem trimStart_append (h : ∀ g ∈ t, p g = true) : trimStart p (t ++ u) = trimStart p u :=
  List.dropWhile_append_of_pos h

/-- Glyphs of the class are trimmed off the end. -/
theorem trimEnd_append (h : ∀ g ∈ u, p g = true) : trimEnd p (t ++ u) = trimEnd p t := by
  have hrev : ∀ g ∈ u.reverse, p g = true := fun g hg => h g (List.mem_reverse.1 hg)
  unfold trimEnd
  rw [List.reverse_append, List.dropWhile_append_of_pos hrev]

/-- A text is glyphs of a class, and then nothing or a text that starts with another glyph. -/
theorem exists_split_start (p : Glyph → Bool) (t : Text) : ∃ u v, t = u ++ v ∧
    (∀ g ∈ u, p g = true) ∧ ∀ g, v.head? = some g → p g = false := by
  refine ⟨t.takeWhile p, trimStart p t, List.takeWhile_append_dropWhile.symm, ?_, ?_⟩
  · exact fun g hg => List.mem_takeWhile_imp hg
  · exact fun g hg => head?_trimStart hg

/-- A text is nothing or a text that ends with another glyph, and then glyphs of a class. -/
theorem exists_split_end (p : Glyph → Bool) (t : Text) : ∃ u v, t = u ++ v ∧
    (∀ g, u.getLast? = some g → p g = false) ∧ ∀ g ∈ v, p g = true := by
  obtain ⟨u, v, ht, hu, hv⟩ := exists_split_start p t.reverse
  refine ⟨v.reverse, u.reverse, ?_, ?_, ?_⟩
  · rw [← List.reverse_append, ← ht, List.reverse_reverse]
  · intro g hg
    exact hv g (by simpa using hg)
  · exact fun g hg => hu g (List.mem_reverse.1 hg)

end Text

/-- A line taken apart. -/
structure Layout (line : Text) where
  indent : Text
  word : Text
  /-- What keeps the rest off the word. -/
  gap : Text
  rest : Text
  feeds : Text
  line_eq : line = indent ++ (word ++ (gap ++ rest)) ++ feeds
  indent_all : ∀ g ∈ indent, g.isIndent = true
  word_head : ∀ g, (word ++ gap).head? = some g → g.isIndent = false
  word_solid : ∀ g ∈ word, g ≠ .char ' '
  gap_head : gap.head? = some (.char ' ') ∨ gap = [] ∧ rest = []
  gap_all : ∀ g ∈ gap, g.isIndent = true
  rest_head : ∀ g, rest.head? = some g → g.isIndent = false
  /-- All line feeds at the end are in the last part. -/
  ends : (indent ++ (word ++ (gap ++ rest))).getLast? ≠ some .newline
  feeds_all : ∀ g ∈ feeds, g = .newline

namespace Layout

open Command (lineText firstWord afterFirstWord)

/-! ### Every line has a layout -/

theorem exists_layout (line : Text) : Nonempty (Layout line) := by
  obtain ⟨content, feeds, rfl, hends, hfeeds⟩ := Text.exists_split_end (· == .newline) line
  obtain ⟨indent, body, rfl, hindent, hbody⟩ := Text.exists_split_start Glyph.isIndent content
  obtain ⟨word, tail, rfl, hword, htail⟩ := Text.exists_split_start (· != .char ' ') body
  have hends' : (indent ++ (word ++ tail)).getLast? ≠ some .newline := fun h => by
    simpa using hends _ h
  cases tail with
  | nil =>
    exact ⟨{
      indent, word, feeds, gap := [], rest := []
      line_eq := rfl
      indent_all := hindent
      word_head := hbody
      word_solid := by simpa using hword
      gap_head := .inr ⟨rfl, rfl⟩
      gap_all := by simp
      rest_head := by simp
      ends := hends'
      feeds_all := by simpa using hfeeds }⟩
  | cons space more =>
    obtain rfl : space = .char ' ' := by simpa using htail space rfl
    obtain ⟨gap, rest, rfl, hgap, hrest⟩ := Text.exists_split_start Glyph.isIndent more
    exact ⟨{
      indent, word, feeds, rest, gap := .char ' ' :: gap
      line_eq := rfl
      indent_all := hindent
      word_head := fun g hg => hbody g (by cases word <;> simpa using hg)
      word_solid := by simpa using hword
      gap_head := .inl rfl
      gap_all := by simpa using ⟨by decide, hgap⟩
      rest_head := hrest
      ends := hends'
      feeds_all := by simpa using hfeeds }⟩

/-! ### Reading finds the parts of the layout -/

variable {line : Text} (l : Layout line)

theorem lineText_eq : lineText line = l.indent ++ (l.word ++ (l.gap ++ l.rest)) := by
  have hfeeds : ∀ g ∈ l.feeds, (g == Glyph.newline) = true := by simpa using l.feeds_all
  have hends : ∀ g, (l.indent ++ (l.word ++ (l.gap ++ l.rest))).getLast? = some g →
      (g == Glyph.newline) = false := by
    intro g hg
    rw [beq_eq_false_iff_ne]
    rintro rfl
    exact l.ends hg
  calc lineText line
      = Text.trimEnd (· == .newline) (l.indent ++ (l.word ++ (l.gap ++ l.rest)) ++ l.feeds) := by
        rw [← l.line_eq]
        rfl
    _ = l.indent ++ (l.word ++ (l.gap ++ l.rest)) := by
        rw [Text.trimEnd_append hfeeds, Text.trimEnd_eq_self hends]

theorem trimStart_eq :
    Text.trimStart Glyph.isIndent (lineText line) = l.word ++ (l.gap ++ l.rest) := by
  rw [l.lineText_eq, Text.trimStart_append l.indent_all]
  apply Text.trimStart_eq_self
  intro g hg
  -- A line with neither word nor gap has no rest.
  by_cases hnone : l.word ++ l.gap = []
  · obtain ⟨hword, hgap⟩ := List.append_eq_nil_iff.1 hnone
    have hrest : l.rest = [] := by simpa [hgap] using l.gap_head
    simp [hword, hgap, hrest] at hg
  · have hhead := l.word_head g
    obtain ⟨first, others, hfirst⟩ := List.exists_cons_of_ne_nil hnone
    rw [← List.append_assoc, hfirst] at hg
    rw [hfirst] at hhead
    exact hhead hg

/-- The first space after the indent is the one that ends the word. -/
theorem takeWhile_dropWhile_eq :
    (l.word ++ (l.gap ++ l.rest)).takeWhile (· != .char ' ') = l.word ∧
      (l.word ++ (l.gap ++ l.rest)).dropWhile (· != .char ' ') = l.gap ++ l.rest := by
  have hword : ∀ g ∈ l.word, (g != .char ' ') = true := by simpa using l.word_solid
  rw [List.takeWhile_append_of_pos hword, List.dropWhile_append_of_pos hword]
  rcases l.gap_head with hgap | ⟨hgap, hrest⟩
  · obtain ⟨more, hmore⟩ := List.head?_eq_some_iff.1 hgap
    simp [hmore]
  · simp [hgap, hrest]

/-- **The first word that is read is the word of the layout.** -/
theorem firstWord_eq : firstWord (lineText line) = l.word := by
  unfold firstWord
  rw [l.trimStart_eq, l.takeWhile_dropWhile_eq.1]

/-- **What is read after the first word is the rest of the layout.** -/
theorem afterFirstWord_eq : afterFirstWord (lineText line) = l.rest := by
  unfold afterFirstWord
  rw [l.trimStart_eq, l.takeWhile_dropWhile_eq.2]
  rcases l.gap_head with hgap | ⟨hgap, hrest⟩
  · obtain ⟨more, hmore⟩ := List.head?_eq_some_iff.1 hgap
    have hall : ∀ g ∈ more, g.isIndent = true := fun g hg =>
      l.gap_all g (hmore ▸ List.mem_cons_of_mem _ hg)
    calc Text.trimStart Glyph.isIndent ((l.gap ++ l.rest).drop 1)
        = Text.trimStart Glyph.isIndent (more ++ l.rest) := by rw [hmore]; rfl
      _ = l.rest := by rw [Text.trimStart_append hall, Text.trimStart_eq_self l.rest_head]
  · rw [hgap, hrest]
    rfl

end Layout

namespace Command

/-! ### What a line spells -/

/-- The line is the keyword, in any case, and this rest. -/
def Spells (line : Text) (k : Keyword) (rest : Text) : Prop :=
  ∃ l : Layout line, l.word.capitals = Text.ofString k.name ∧ l.rest = rest

variable {line rest : Text} {k : Keyword}

theorem spells_iff : Spells line k rest ↔
    Keyword.ofName? (firstWord (lineText line)).capitals = some k ∧
      afterFirstWord (lineText line) = rest := by
  rw [Keyword.ofName?_eq_some_iff]
  constructor
  · rintro ⟨l, hword, hrest⟩
    rw [l.firstWord_eq, l.afterFirstWord_eq]
    exact ⟨hword, hrest⟩
  · rintro ⟨hword, hrest⟩
    obtain ⟨l⟩ := Layout.exists_layout line
    rw [l.firstWord_eq] at hword
    rw [l.afterFirstWord_eq] at hrest
    exact ⟨l, hword, hrest⟩

/-- The rest is part of the line. -/
theorem Spells.isInfix (h : Spells line k rest) : rest <:+: line := by
  obtain ⟨l, -, rfl⟩ := h
  exact ⟨l.indent ++ (l.word ++ l.gap), l.feeds, by simpa using l.line_eq.symm⟩

theorem read_of_spells (h : Spells line k rest) (lineno : Int) : read line lineno =
    if rest.isEmpty then .ok (plain k) else parseArgument lineno (lineText line) k rest := by
  obtain ⟨hk, hrest⟩ := spells_iff.1 h
  unfold read
  dsimp only
  rw [hk, hrest]
  rfl

theorem read_of_not_spells (h : ∀ k rest, ¬ Spells line k rest) (lineno : Int) :
    read line lineno = .error (.badLine lineno (lineText line) .unknownCommand) := by
  have hnone : Keyword.ofName? (firstWord (lineText line)).capitals = none := by
    rw [Option.eq_none_iff_forall_ne_some]
    intro k hk
    exact h k _ (spells_iff.2 ⟨hk, rfl⟩)
  unfold read
  dsimp only
  rw [hnone]
  rfl

end Command
end UndoScript

/-
# Lines

Only a line feed ends a line: other separators are content, since documents
may be binary. Each line keeps its terminator, so the lines set one after the
other are the text again. The content of a line is what remains without its
one terminator, a line feed, a carriage return, or both in a row.

Key definitions: `Text.pieces`, `Text.lines`, `Text.content`.
Key theorems: `Text.pieces_newline_cons`, `Text.pieces_cons`,
`Text.lines_newline_cons`, `Text.lines_cons`, `Text.flatten_lines`.
-/
import UndoScript.Text.Glyph

namespace UndoScript
namespace Text

/-- Reads on for the pieces, with the piece begun and the pieces finished, both in reverse. -/
def piecesOnto (finished : List Text) (begun : Text) : Text → List Text
  | [] => (begun.reverse :: finished).reverse
  | g :: rest =>
    if g = .newline then piecesOnto (begun.reverse :: finished) [] rest
    else piecesOnto finished (g :: begun) rest

/-- The pieces of a text between its line feeds, one more than there are line feeds. -/
def pieces (text : Text) : List Text := piecesOnto [] [] text

/-- Reads on for the lines, with the line begun and the lines finished, both in reverse. -/
def linesOnto (finished : List Text) (begun : Text) : Text → List Text
  | [] => (if begun.isEmpty then finished else begun.reverse :: finished).reverse
  | g :: rest =>
    if g = .newline then linesOnto ((g :: begun).reverse :: finished) [] rest
    else linesOnto finished (g :: begun) rest

/-- The lines of a text, each with its line feed; the last may lack one. -/
def lines (text : Text) : List Text := linesOnto [] [] text

/-- A line without its one terminator, if it has one. -/
def content (line : Text) : Text :=
  if List.isSuffixOf [.carriageReturn, .newline] line then line.dropLast.dropLast
  else if List.isSuffixOf [.newline] line || List.isSuffixOf [.carriageReturn] line then
    line.dropLast
  else line

/-! ### What splitting does -/

/-- The pieces finished before stay in front, and the piece begun goes on. -/
theorem piecesOnto_eq (text : Text) : ∀ (finished : List Text) (begun : Text),
    piecesOnto finished begun text =
      finished.reverse ++ (pieces text).modifyHead (begun.reverse ++ ·) := by
  induction text with
  | nil => intro finished begun; simp [piecesOnto, pieces]
  | cons g rest ih =>
    intro finished begun
    by_cases h : g = .newline
    · simp only [piecesOnto, pieces, if_pos h]
      rw [ih, ih [List.reverse []]]
      simp
    · simp only [piecesOnto, pieces, if_neg h]
      rw [ih, ih []]
      obtain _ | ⟨p, ps⟩ := pieces rest <;> simp

@[simp] theorem pieces_nil : pieces [] = [[]] := rfl

theorem pieces_newline_cons (rest : Text) : pieces (.newline :: rest) = [] :: pieces rest := by
  rw [pieces, piecesOnto, if_pos rfl, piecesOnto_eq]
  obtain _ | ⟨p, ps⟩ := pieces rest <;> simp

theorem pieces_cons {g : Glyph} (h : g ≠ .newline) (rest : Text) :
    pieces (g :: rest) = (pieces rest).modifyHead (g :: ·) := by
  rw [pieces, piecesOnto, if_neg h, piecesOnto_eq]
  simp

/-- The lines that follow the beginning of a line. -/
def continued (begun : Text) : List Text → List Text
  | [] => if begun.isEmpty then [] else [begun]
  | l :: ls => (begun ++ l) :: ls

/-- The lines finished before stay in front, and the line begun goes on. -/
theorem linesOnto_eq (text : Text) : ∀ (finished : List Text) (begun : Text),
    linesOnto finished begun text = finished.reverse ++ continued begun.reverse (lines text) := by
  induction text with
  | nil =>
    intro finished begun
    cases begun <;> simp [linesOnto, lines, continued]
  | cons g rest ih =>
    intro finished begun
    by_cases h : g = .newline
    · subst h
      simp only [linesOnto, lines, if_pos]
      rw [ih, ih [_]]
      obtain _ | ⟨l, ls⟩ := lines rest <;> simp [continued]
    · simp only [linesOnto, lines, if_neg h]
      rw [ih, ih []]
      obtain _ | ⟨l, ls⟩ := lines rest <;> simp [continued]

@[simp] theorem lines_nil : lines [] = [] := rfl

theorem lines_newline_cons (rest : Text) :
    lines (.newline :: rest) = [.newline] :: lines rest := by
  rw [lines, linesOnto, if_pos rfl, linesOnto_eq]
  obtain _ | ⟨l, ls⟩ := lines rest <;> simp [continued]

theorem lines_cons {g : Glyph} (h : g ≠ .newline) (rest : Text) :
    lines (g :: rest) = continued [g] (lines rest) := by
  rw [lines, linesOnto, if_neg h, linesOnto_eq]
  simp

/-- **Nothing is lost:** the lines set one after the other are the text. -/
theorem flatten_lines (text : Text) : (lines text).flatten = text := by
  induction text with
  | nil => rfl
  | cons g rest ih =>
    by_cases h : g = .newline
    · subst h
      rw [lines_newline_cons]
      simp [ih]
    · rw [lines_cons h]
      cases hls : lines rest with
      | nil => simp_all [continued]
      | cons l ls => simp_all [continued]

end Text
end UndoScript

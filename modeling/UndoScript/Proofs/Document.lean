/-
# Documents line by line

The lines of a document made from a text are the one way to cut the text into
lines, and have no line feed inside, whatever the text. Other documents may.

Key definitions: `Document.Unbroken`.
Key theorems: `Document.unbroken_ofText`, `Document.lines_unique`,
`Document.exists_of_load`, `Document.unbroken_of_load`, `Document.holds_iff`.
-/
import UndoScript.Document.Load
import UndoScript.Proofs.Text.Lines

namespace UndoScript
namespace Document

/-- No line has a line feed inside. -/
def Unbroken (d : Document) : Prop := ∀ line ∈ d.lines, Glyph.newline ∉ line.content

theorem unbroken_ofText (text : Text) : (ofText text).Unbroken :=
  fun _ h => Text.newline_not_mem_content h

/-- **There is one way to cut a text into lines.** Of all lists whose members give the text when set
one after the other, one is made of lines, so lines set one after the other are the lines of what
they give. In the document no content of a line has a line feed, and there are as many lines as line
feeds, and one more if something follows the last of them. -/
theorem lines_unique (text : Text) :
    (∀ ls, Text.AreLines ls ∧ ls.flatten = text ↔ ls = text.lines) ∧
    (∀ ls, Text.AreLines ls → Text.lines ls.flatten = ls) ∧
    (∀ line ∈ (ofText text).lines, .newline ∉ line.content) ∧
    (ofText text).lines.length =
      text.count .newline + if text ≠ [] ∧ text.getLast? ≠ some .newline then 1 else 0 := by
  refine ⟨fun ls => ⟨?_, ?_⟩, fun ls hls => Text.lines_flatten hls, unbroken_ofText text,
    Text.length_lines text⟩
  · rintro ⟨hlines, rfl⟩
    exact (Text.lines_flatten hlines).symm
  · rintro rfl
    exact ⟨Text.areLines_lines text, Text.flatten_lines text⟩

example : (ofText "a\r\n\nb").lines = ["a\r\n", "\n", "b"].map Text.ofString := rfl

/-- What is loaded is made from the text of the file. -/
theorem exists_of_load {read : Reader} {path : Text} {d : Document} {n : Nat}
    (h : load read path = .ok (d, n)) :
    ∃ bytes, read path = .ok bytes ∧ d = ofText (Utf8.decode bytes) := by
  unfold load at h
  split at h
  · next bytes hbytes =>
    cases h
    exact ⟨bytes, hbytes, rfl⟩
  · cases h
  · cases h

theorem unbroken_of_load {read : Reader} {path : Text} {d : Document} {n : Nat}
    (h : load read path = .ok (d, n)) : d.Unbroken := by
  obtain ⟨bytes, -, rfl⟩ := exists_of_load h
  exact unbroken_ofText _

/-- What a document holds is a piece of the content of a line. -/
theorem holds_iff {d : Document} {t : Text} :
    d.holds t = true ↔ ∃ line ∈ d.lines, t <:+: line.content := by
  simp only [holds, List.any_eq_true, Text.occursIn_iff]

end Document
end UndoScript

/-
# Texts that can carry any file

A document is any sequence of bytes, and what is cut from it goes back out
unchanged. So a text is a list of glyphs: a character, or one byte from 0x80
up that stood in no well-formed character. Lengths, cuts and searches count
glyphs, and a lone byte is one glyph.

Key definitions: `Glyph`, `Text`, `Text.ofString`, `Text.concat`,
`Text.occursIn`, `Text.withoutEnding`.
-/

namespace UndoScript

/-- One position of a text: a character, or the byte `0x80 + low` that was no part of one. -/
inductive Glyph
  | char (c : Char)
  | byte (low : Fin 128)
deriving DecidableEq, Inhabited

/-- A text, glyph by glyph. -/
abbrev Text := List Glyph

/-- The value of a lone byte, from 0x80 to 0xFF. -/
def Glyph.byteValue (low : Fin 128) : Nat := 128 + low.val

/-- The glyph that ends a line. -/
def Glyph.newline : Glyph := .char '\n'

/-- The glyph that a carriage return is. -/
def Glyph.carriageReturn : Glyph := .char '\r'

namespace Text

/-- The text that a string spells. -/
def ofString (s : String) : Text := s.toList.map Glyph.char

instance : Coe String Text := ⟨ofString⟩

/-- Texts set one after the other. -/
def concat (pieces : List Text) : Text := pieces.flatten

/-- Texts set one after the other with `separator` between neighbours. -/
def joined (separator : Text) (pieces : List Text) : Text := pieces.intersperse separator |>.flatten

/-- A piece occurs in a text if the text is something, the piece, and something. -/
def occursIn (piece : Text) : Text → Bool
  | [] => piece.isEmpty
  | g :: rest => piece.isPrefixOf (g :: rest) || occursIn piece rest

/-- A text without the given ending, or the text itself if it does not end so. -/
def withoutEnding (ending text : Text) : Text :=
  if ending.isSuffixOf text then text.take (text.length - ending.length) else text

@[simp] theorem ofString_empty : ofString "" = [] := rfl

@[simp] theorem concat_nil : concat [] = [] := rfl

@[simp] theorem concat_cons (t : Text) (ts : List Text) : concat (t :: ts) = t ++ concat ts := by
  simp [concat]

/-- **Searching is being a contiguous piece.** -/
theorem occursIn_iff (piece : Text) : ∀ text : Text, occursIn piece text = true ↔ piece <:+: text
  | [] => by simp [occursIn]
  | g :: rest => by
    simp [occursIn, occursIn_iff piece rest, List.infix_cons_iff]

end Text
end UndoScript

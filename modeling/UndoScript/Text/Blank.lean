/-
# White space

A blank is any character that Unicode counts as white space, the four
separators U+001C to U+001F included; a lone byte never is one. Blank lines of
a script are skipped, and a step count may be surrounded by blanks.

Key definitions: `Glyph.isBlank`, `Text.isBlank`, `Text.trim`.
-/
import UndoScript.Text.Glyph

namespace UndoScript

/-- White space outside ASCII. -/
def Blank.isWide (n : Nat) : Bool :=
  n == 0x85 || n == 0xA0 || n == 0x1680 || (0x2000 ≤ n && n ≤ 0x200A) || n == 0x2028 || n == 0x2029 ||
    n == 0x202F || n == 0x205F || n == 0x3000

/-- Is the glyph white space? -/
def Glyph.isBlank : Glyph → Bool
  | .char c =>
    let n := c.toNat
    (0x09 ≤ n && n ≤ 0x0D) || (0x1C ≤ n && n ≤ 0x20) || Blank.isWide n
  | .byte _ => false

namespace Text

/-- Is the text nothing but white space? -/
def isBlank (text : Text) : Bool := text.all Glyph.isBlank

/-- The text without the glyphs of a class at its start. -/
def trimStart (class? : Glyph → Bool) (text : Text) : Text := text.dropWhile class?

/-- The text without the glyphs of a class at its end. -/
def trimEnd (class? : Glyph → Bool) (text : Text) : Text := (text.reverse.dropWhile class?).reverse

/-- The text without the glyphs of a class at either end. -/
def trim (class? : Glyph → Bool) (text : Text) : Text := trimEnd class? (trimStart class? text)

end Text
end UndoScript

/-
# Capital letters

A keyword may be written in any case. The capital form of a character is that
of Unicode's full mapping as far as it ends in plain letters: a ligature gives
several letters. All other characters stay as they are, which is no loss here,
since no keyword holds one.

Key definitions: `Capital.ofChar`, `Text.capitals`.
-/
import UndoScript.Text.Glyph

namespace UndoScript

/-- The capital letters that a character stands for. -/
def Capital.ofChar (c : Char) : List Char :=
  if 'a' ≤ c && c ≤ 'z' then [Char.ofNat (c.toNat - 32)]
  else match c with
    | 'ß' => ['S', 'S']
    | 'ı' => ['I']
    | 'ſ' => ['S']
    | 'ﬀ' => ['F', 'F']
    | 'ﬁ' => ['F', 'I']
    | 'ﬂ' => ['F', 'L']
    | 'ﬃ' => ['F', 'F', 'I']
    | 'ﬄ' => ['F', 'F', 'L']
    | 'ﬅ' => ['S', 'T']
    | 'ﬆ' => ['S', 'T']
    | c => [c]

/-- The capital form of a glyph. -/
def Glyph.capitals : Glyph → Text
  | .char c => (Capital.ofChar c).map Glyph.char
  | .byte low => [.byte low]

/-- The text in capital letters. -/
def Text.capitals (text : Text) : Text := text.flatMap Glyph.capitals

example : Text.capitals "ﬁnd" = Text.ofString "FIND" := by decide

end UndoScript

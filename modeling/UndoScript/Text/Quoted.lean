/-
# Quoted texts in messages

A message shows a text between single quotes, or between double quotes if it
holds a single quote and no double one. The quote in use and the backslash
are written after a backslash, line feed, carriage return and tab by letter,
and what does not print by its number: `\x` and two hexadecimal digits,
`\u` and four, or `\U` and eight. A lone byte is written `\udc` and the
two digits of its value.

Key definitions: `Quoted.quote`, `Quoted.spell`, `Text.quoted`.
-/
import UndoScript.Text.Printable

namespace UndoScript
namespace Quoted

/-- A number in hexadecimal, in at least `width` digits. -/
def hex (width n : Nat) : String :=
  let digits := Nat.toDigits 16 n
  String.ofList (List.replicate (width - digits.length) '0' ++ digits)

/-- The escape for a number: the shortest of the three forms that can hold it. -/
def escape (n : Nat) : Text :=
  if n < 0x100 then "\\x" ++ hex 2 n
  else if n < 0x10000 then "\\u" ++ hex 4 n
  else "\\U" ++ hex 8 n

/-- The escape for a lone byte. -/
def escapeByte (low : Fin 128) : Text := escape (0xDC00 + Glyph.byteValue low)

/-- The quote put around a text. -/
def quote (text : Text) : Char :=
  if text.contains (.char '\'') && !text.contains (.char '"') then '"' else '\''

/-- A glyph as written between two quotes of the given kind. -/
def spell (mark : Char) : Glyph → Text
  | .char '\n' => "\\n"
  | .char '\r' => "\\r"
  | .char '\t' => "\\t"
  | .char c =>
    if c = mark || c = '\\' then [.char '\\', .char c]
    else if (Glyph.char c).isPrintable then [.char c]
    else escape c.toNat
  | .byte low => escapeByte low

end Quoted

/-- The text as a message shows it. -/
def Text.quoted (text : Text) : Text :=
  let mark := Quoted.quote text
  Text.concat [[.char mark], text.flatMap (Quoted.spell mark), [.char mark]]

example : Text.quoted "it's\n" = Text.ofString "\"it's\\n\"" := by decide +kernel

end UndoScript

/-
# Whole numbers on the command line

The value of an option that is a number may have white space around it, a
sign, digits of any script, and single underscores between digits. The four
separators U+001C to U+001F do not count as white space here.

Key definitions: `Digit.zeros`, `Digit.value?`, `readInteger?`.
-/
import UndoScript.Text.Numeral
import UndoScript.Text.Blank

namespace UndoScript

/-- The zeros of the scripts that have decimal digits; the other nine follow each. -/
def Digit.zeros : List Nat :=
  [0x30, 0x660, 0x6F0, 0x7C0, 0x966, 0x9E6, 0xA66, 0xAE6, 0xB66, 0xBE6, 0xC66, 0xCE6, 0xD66,
   0xDE6, 0xE50, 0xED0, 0xF20, 0x1040, 0x1090, 0x17E0, 0x1810, 0x1946, 0x19D0, 0x1A80, 0x1A90,
   0x1B50, 0x1BB0, 0x1C40, 0x1C50, 0xA620, 0xA8D0, 0xA900, 0xA9D0, 0xA9F0, 0xAA50, 0xABF0,
   0xFF10, 0x104A0, 0x10D30, 0x11066, 0x110F0, 0x11136, 0x111D0, 0x112F0, 0x11450, 0x114D0,
   0x11650, 0x116C0, 0x11730, 0x118E0, 0x11950, 0x11C50, 0x11D50, 0x11DA0, 0x16A60, 0x16AC0,
   0x16B50, 0x1D7CE, 0x1D7D8, 0x1D7E2, 0x1D7EC, 0x1D7F6, 0x1E140, 0x1E2F0, 0x1E950, 0x1FBF0]

/-- The value of a digit of any script. -/
def Digit.value? : Glyph → Option Nat
  | .char c =>
    (Digit.zeros.find? fun first => first ≤ c.toNat && c.toNat < first + 10).map fun first =>
      c.toNat - first
  | .byte _ => none

/-- White space around a number. -/
def Glyph.isMargin (g : Glyph) : Bool :=
  g.isBlank && !(g == .char '\x1c' || g == .char '\x1d' || g == .char '\x1e' || g == .char '\x1f')

namespace IntegerText

/-- The values of the digits of a text; each underscore must stand between two digits. -/
def digits? : Text → Option (List Nat)
  | [] => none
  | [g] => (Digit.value? g).map fun d => [d]
  | g :: h :: rest =>
    match Digit.value? g with
    | none => none
    | some d =>
      if h = .char '_' then (digits? rest).map (d :: ·) else (digits? (h :: rest)).map (d :: ·)

/-- The number without a sign that a text spells. -/
def natural? (t : Text) : Option Nat :=
  match digits? t with
  | none => none
  | some ds =>
    if ds.length ≤ Numeral.limit then some (ds.foldl (fun n d => 10 * n + d) 0) else none

end IntegerText

/-- The number that a text spells. -/
def readInteger? (t : Text) : Option Int :=
  match t.trim Glyph.isMargin with
  | .char '-' :: rest => (IntegerText.natural? rest).map fun n => -(n : Int)
  | .char '+' :: rest => (IntegerText.natural? rest).map fun n => (n : Int)
  | rest => (IntegerText.natural? rest).map fun n => (n : Int)

end UndoScript

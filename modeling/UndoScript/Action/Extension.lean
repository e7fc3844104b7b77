/-
# The extension of a path

The extension is what follows the last point of a path's last part, if that is
one or more small letters and digits. A line feed at the very end is not
counted.

Key definitions: `Path.lastPart`, `Path.extension?`.
-/
import UndoScript.Text.Glyph

namespace UndoScript
namespace Path

/-- The part of a path after its last slash. -/
def lastPart (path : Text) : Text := (path.reverse.takeWhile (· != .char '/')).reverse

/-- Is the glyph a small letter or a digit? -/
def isExtensionGlyph : Glyph → Bool
  | .char c => ('a' ≤ c && c ≤ 'z') || ('0' ≤ c && c ≤ '9')
  | .byte _ => false

/-- The extension of a path, if it has one. -/
def extension? (path : Text) : Option Text :=
  let backwards := (Text.withoutEnding [.newline] (lastPart path)).reverse
  let found := backwards.takeWhile isExtensionGlyph
  if !found.isEmpty && (backwards.dropWhile isExtensionGlyph).head? == some (.char '.') then
    some found.reverse
  else none

end Path
end UndoScript

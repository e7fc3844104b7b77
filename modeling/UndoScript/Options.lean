/-
# Options of a script

A script is made for a text or for a binary file, and its numbers are positive.

Key definitions: `Options`, `Options.standard`, `Options.checked`.
-/
import UndoScript.Fault

namespace UndoScript

/-- What a script may use, and the values it sets. -/
structure Options where
  /-- Only commands that are safe on files that are not text. -/
  binary : Bool := false
  /-- The value of the TURBO command, which lets the script run without redrawing. -/
  turbo : Int := 10000
  /-- Text scripts turn the matching of brackets on. -/
  matchBrackets : Bool := true
  /-- Text scripts set UTF-8 on or off, at random. -/
  toggleUtf8 : Bool := true
  /-- All matches may be replaced at once, not only one. -/
  replaceAll : Bool := true
  /-- How deep the last UNDO and REDO go. -/
  undoDepth : Int := 10000000
  turbo_pos : 0 < turbo := by decide
  undoDepth_pos : 0 < undoDepth := by decide

namespace Options

/-- The options of a script for which nothing else is asked. -/
def standard : Options := {}

/-- The options with these values; the first number that is not positive is refused. -/
def checked (binary : Bool) (turbo : Int) (matchBrackets toggleUtf8 replaceAll : Bool)
    (undoDepth : Int) : Except Fault Options :=
  if ht : 0 < turbo then
    if hu : 0 < undoDepth then
      .ok { binary, turbo, matchBrackets, toggleUtf8, replaceAll, undoDepth, turbo_pos := ht,
            undoDepth_pos := hu }
    else .error (Fault.undoDepthNotPositive undoDepth).inWords
  else .error (Fault.turboNotPositive turbo).inWords

end Options
end UndoScript

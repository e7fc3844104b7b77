/-
# Documents from files

A document is read from a file as it is, byte for byte. A file that cannot be
opened is a document that is not available.

Key definitions: `Reader`, `Document.load`.
-/
import UndoScript.Document
import UndoScript.Text.Utf8

namespace UndoScript

/-- A way to get what the file at a path holds. -/
abbrev Reader := Text → Except Fault (List UInt8)

/-- The document in a file, with the number of its bytes. -/
def Document.load (read : Reader) (path : Text) : Except Fault (Document × Nat) :=
  match read path with
  | .ok bytes => .ok (.ofText (Utf8.decode bytes), bytes.length)
  | .error (.fileUnavailable _ why) => .error (.documentUnavailable path why.reason)
  | .error f => .error f

end UndoScript

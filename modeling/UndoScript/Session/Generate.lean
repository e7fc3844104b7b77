/-
# Scripts for files

A script for a document in a file, which is also the file that the editor
opens. The step count is judged before the file is read.

Key definitions: `Session.scriptFor`.
-/
import UndoScript.Document.Load
import UndoScript.Session.Script

namespace UndoScript

/-- The lines of a script for the document at `target`. -/
def Session.scriptFor {σ : Type} [Source σ] (read : Reader) (value : Literal) (target : Text)
    (options : Options) (source : σ) : Except Fault (List Text) := do
  let n ← StepCount.ofLiteral value
  let (document, _) ← Document.load read target
  (Session.script (.whole n)).run (Session.ofSetting ⟨document, target, options⟩ source) |>.1

end UndoScript

/-
# Whole scripts

A script is written in one go: the opening commands, the steps one after the
other, the closing commands. Each part is put into lines before the next is
made, and at the end the script is summed up. The value that asks for the steps
is judged first, before anything is forgotten or drawn.

Key definitions: `Session.written`, `Session.stepLines`, `Session.script`.
-/
import UndoScript.Session.Basic

namespace UndoScript
namespace Session

variable {σ : Type} [Source σ]

/-- The lines of the commands that a part of a script is. -/
def written (part : SessionM σ (List Command)) : SessionM σ (List Text) := do
  let commands ← part
  liftM (Command.renderAll commands)

/-- The lines of `n` steps, step by step. -/
def stepLines : Nat → SessionM σ (List (List Text))
  | 0 => return []
  | n + 1 => do
    let lines ← written step
    let rest ← stepLines n
    return lines :: rest

/-- The lines of a script with as many steps as a value asks for. -/
def script (value : Literal) : SessionM σ (List Text) := do
  let n ← liftM ((← get).setting.stepCount value)
  let first ← written start
  let steps ← stepLines n
  let last ← written closing
  let _ ← liftM ((← get).summary n)
  return first ++ steps.flatten ++ last

end Session
end UndoScript

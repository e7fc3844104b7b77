/-
# The parts of a script

A script opens the document, takes its steps, and closes with three saves:
after the steps, after undoing everything, and after redoing everything, so
that the three files can be compared.

Key definitions: `Setting.stepCount`, `Setting.opening`, `Setting.closing`,
`Step`, `Setting.step`.
-/
import UndoScript.Action.Perform
import UndoScript.StepCount

namespace UndoScript

/-- What one step came to: its category, its commands, and what is remembered after it. -/
structure Step where
  category : Category
  commands : List Command
  memory : Memory

namespace Setting

/-- How many steps a value asks for. Any step at all needs a document with content. -/
def stepCount (s : Setting) (value : Literal) : Except Fault Nat := do
  let n ← StepCount.ofLiteral value
  if n ≠ 0 ∧ s.document.hasContent = false then throw .documentEmpty
  return n

/-- The commands that open the document. A binary document is opened as such, before it is loaded;
a text gets its own settings afterwards. -/
def opening (s : Setting) : Sampler (List Command) := do
  let openFile ← Command.string .openFile s.target
  let turbo ← Command.number .turbo s.options.turbo
  if s.options.binary then
    return [.plain .binary, openFile, turbo]
  else
    let brackets ← if s.options.matchBrackets then
        do pure [← Command.number .autoMatchBracket 1]
      else pure []
    let utf8 ← if s.options.toggleUtf8 then
        do pure [← Command.number .utf8 (← Sampler.drawFrom 0 2)]
      else pure []
    return [openFile, turbo] ++ brackets ++ utf8

/-- The path of a saved file: the target's with an ending of its own. -/
def savedAs (s : Setting) (ending : String) : Text := s.target ++ Text.ofString ending

/-- The commands that save, undo everything, save, redo everything and save. -/
def closing (s : Setting) : Except Fault (List Command) := do
  let depth := s.options.undoDepth
  return [← Command.string .saveAs (s.savedAs ".test"),
    ← Command.number .undo depth,
    ← Command.string .saveAs (s.savedAs ".undone"),
    ← Command.number .redo depth,
    ← Command.string .saveAs (s.savedAs ".redone"),
    .plain .exit]

/-- One step: a category, one of its actions, and what that emits. -/
def step (s : Setting) (m : Memory) : Sampler Step := do
  let r ← Sampler.draw 100
  let category ← Category.ofDraw r.val
  let action ← Sampler.choose (Action.table s.options category)
  let (commands, after) ← action.perform s m
  return ⟨category, commands, if category.mutates then after.changed else after⟩

end Setting
end UndoScript

/-
# What actions emit

Each action is a sampler of its commands and of what is remembered after it.
Only the clipboard's turn changes what is remembered. While a selection is
open it closes it, in one of four ways. Otherwise it pastes a full clipboard
or opens a selection, upright or not, or does nothing, half the time.

Key definitions: `Setting`, `Action.clipboardTurn`, `Action.replacement`,
`Action.perform`.
-/
import UndoScript.Action.Basic
import UndoScript.Action.Extension
import UndoScript.Document
import UndoScript.Memory
import UndoScript.Command.Basic

namespace UndoScript

/-- What a script is made for: the document, its path as the editor gets it, and the options. -/
structure Setting where
  document : Document
  target : Text
  options : Options

namespace Action

/-- The patterns that are searched for to be replaced: a capitalized word, a word, digits. -/
def replacePatterns : List String := ["[A-Z][a-z]+", "[a-z]+", "[0-9]+"]

/-- The next turn of selecting, copying or dropping, and pasting. -/
def clipboardTurn (m : Memory) : Sampler (List Command × Memory) := do
  let choice ← Sampler.draw 4
  if m.selecting then
    match choice with
    | 0 => return ([.plain .copy], ← m.closeSelection true)
    | 1 => return ([.plain .cut], ← m.closeSelection true)
    | 2 => return ([.plain .erase], ← m.closeSelection false)
    | 3 =>
      let closed ← m.closeSelection false
      return ([← Command.token .through "sort"], closed)
  else if 1 < choice.val then
    return ([], m)
  else if m.clipboardFull then
    return ([.plain (if choice = 0 then .paste else .pasteVert)], ← m.paste)
  else
    return ([.plain (if choice = 0 then .mark else .markVert)], ← m.openSelection)

/-- A replacement by a fragment, of all matches at once only if that is allowed. -/
def replacement (s : Setting) : Sampler Command := do
  let once ← if s.options.replaceAll then (· == 1) <$> Sampler.draw 2 else pure true
  let fragment ← s.document.drawFragment
  Command.string (if once then .replaceOnce else .replaceAll) fragment

/-- The commands that an action emits, and what is remembered after it. -/
def perform (s : Setting) (m : Memory) : Action → Sampler (List Command × Memory)
  | .plain k => pure ([.plain k], m)
  | .counted k low count => do
    let n ← Sampler.drawFrom low count
    return ([← Command.number k n], m)
  | .token k t => do return ([← Command.token k t], m)
  | .wordMotion k => do
    let n ← Sampler.drawFrom 0 20
    return ([← Command.token k (Numeral.digits n)], m)
  | .gotoLine => do
    let n ← Sampler.drawFrom 1 (max 1 s.document.lines.length)
    return ([← Command.number .gotoLine n], m)
  | .adjustView => do
    let height ← Sampler.choose ["T", "M", "B"]
    let side ← Sampler.choose ["L", "C", "R"]
    return ([← Command.token .adjustView (Text.concat [height, side])], m)
  | .clipboard => clipboardTurn m
  | .replaceFound => do
    let fragment ← s.document.drawFragment
    let search ← Command.string .find fragment
    return ([search, ← replacement s], m)
  | .replaceMatch => do
    let pattern ← Sampler.choose replacePatterns
    let search ← Command.token .findRegexp pattern
    return ([search, ← replacement s], m)
  | .undoThenRedo => do
    let limit ← m.undoBound
    let depth ← Sampler.drawFrom 0 limit
    return ([← Command.number .undo depth, ← Command.number .redo depth], m)
  | .shift => do
    let direction ← Sampler.choose ["<", ">"]
    let n ← Sampler.drawFrom 0 20
    let unit ← Sampler.choose ["t", "s"]
    return ([← Command.token .shift (Text.concat [direction, Numeral.digits n, unit])], m)
  | .setSyntax => do
    let choice ← Sampler.draw 2
    let name : Text := if choice = 0 then "*" else (Path.extension? s.target).getD "*"
    return ([← Command.token .setSyntax name], m)
  | .insertString => do
    let line ← s.document.drawContent
    return ([← Command.string .insertString line], m)

end Action
end UndoScript

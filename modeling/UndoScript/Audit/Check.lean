/-
# Checking a script without running it

A script is split into its opening, the commands at the start that only open
documents, its closing, the last six, and the steps between. Opening and
closing are compared with their shape and with the target, if one is given;
the steps' clipboard is replayed; every text that is searched for, put in or
inserted must be quoted and come from the document.

Only the clipboard's commands and the depths of UNDO and REDO can have numbers
that are too large to be reported; no command that was read from a script has.

Key definitions: `Audit.parts`, `Audit.opening`, `Audit.closing`,
`Audit.sampled`, `Audit.problems`, `Audit.check`.
-/
import UndoScript.Audit.Clipboard
import UndoScript.Command.Reading
import UndoScript.Document

namespace UndoScript

/-- Does the keyword belong to the opening of a script? -/
def Keyword.opens : Keyword → Bool
  | .binary | .openFile | .turbo | .autoMatchBracket | .utf8 => true
  | _ => false

/-- Must the text after the keyword come from the document? -/
def Keyword.takesSample : Keyword → Bool
  | .find | .replaceAll | .replaceOnce | .insertString => true
  | _ => false

namespace Audit

/-- The three parts of a script. -/
structure Parts where
  opening : List Command
  steps : List Command
  closing : List Command
deriving DecidableEq

/-- The script split into its parts. The closing gives way where the script is too short. -/
def parts (commands : List Command) : Parts :=
  let opening := commands.takeWhile fun c => c.keyword.opens
  let rest := commands.dropWhile fun c => c.keyword.opens
  let count := rest.length - Problem.closing.length
  ⟨opening, rest.take count, rest.drop count⟩

/-- The keywords of some commands. -/
def keywords (commands : List Command) : List Keyword := commands.map Command.keyword

/-- The problems with an opening whose keywords, but for a leading BINARY, are `names`. -/
def openingOf (commands : List Command) (names : List Keyword) (target : Option Text) :
    List Problem :=
  if names.take 2 ≠ [.openFile, .turbo] then [.otherOpening names]
  else match target, commands.find? (fun c => c.keyword = .openFile) with
    | some t, some c =>
      if c.argument.operand = .text t then [] else [.otherTarget c.argument.operand t]
    | _, _ => []

/-- The problems with the opening of a script. -/
def opening (commands : List Command) (target : Option Text) : List Problem :=
  match keywords commands with
  | .binary :: names =>
    if .autoMatchBracket ∈ names ∨ .utf8 ∈ names then [.textSettings]
    else openingOf commands names target
  | names => openingOf commands names target

/-- The problem with a saved file's name, if it is not the base and the ending. -/
def saved (c : Command) (base : Text) (ending : String) : List Problem :=
  if c.argument.operand = .text (base ++ Text.ofString ending) then []
  else [.savedElsewhere c.argument.operand base ending]

/-- The problem with two depths, if they are not one and the same number. -/
def depths (undo redo : Command) : List Problem :=
  if undo.argument.operand = .absent ∨ undo.argument.operand ≠ redo.argument.operand then
    [.depthsDiffer undo.argument.operand redo.argument.operand]
  else []

/-- The problems that a closing shows. Without a target, the first saved file tells it. -/
def closingProblems (commands : List Command) (target : Option Text) : List Problem :=
  if keywords commands ≠ Problem.closing then [.otherClosing (keywords commands)]
  else match commands with
    | [test, undo, undone, redo, redone, _] =>
      let base := target.getD (Text.withoutEnding ".test" test.argument.operand.plain)
      depths undo redo ++ saved test base ".test" ++ saved undone base ".undone" ++
        saved redone base ".redone"
    | _ => []

/-- The problems with the closing of a script. -/
def closing (commands : List Command) (target : Option Text) : Except Fault (List Problem) :=
  Problem.report (closingProblems commands target)

/-- The problem with a text that should come from the document. -/
def sample (document : Document) (c : Command) : List Problem :=
  if c.keyword.takesSample then
    match c.argument with
    | .quoted t =>
      if t.isEmpty then [.unquoted c] else if document.holds t then [] else [.notFound c]
    | _ => [.unquoted c]
  else []

/-- The problems with the texts that should come from the document. -/
def sampled (steps : List Command) (document : Document) : List Problem :=
  steps.flatMap (sample document)

/-- The problems with a script that can be read. -/
def problems (commands : List Command) (document : Document) (target : Option Text) :
    Except Fault (List Problem) := do
  let p := parts commands
  let atClipboard ← clipboard p.steps
  let atClosing ← closing p.closing target
  return opening p.opening target ++ atClipboard ++ sampled p.steps document ++ atClosing

/-- The problems with a script. If a line of it is no command, that is the only one. -/
def check (script : Text) (document : Document) (target : Option Text) :
    Except Fault (List Problem) :=
  match Script.parse script with
  | .ok commands => problems commands document target
  | .error (.badLine lineno line why) => .ok [.badLine lineno line why]
  | .error f => .error f

end Audit
end UndoScript

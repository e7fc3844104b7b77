/-
# The clipboard's history, replayed

The steps of a script are gone through with two notes, whether a selection is
open and whether something is waiting to be pasted. Problems are collected and
the notes kept up whatever happens, as the editor would.

Key definitions: `ClipboardNotes`, `ClipboardNotes.after`,
`ClipboardNotes.problems`, `Audit.clipboard`.
-/
import UndoScript.Audit.Problem

namespace UndoScript

/-- What a reader of a script knows of the selection and the clipboard. -/
structure ClipboardNotes where
  selecting : Bool := false
  waiting : Bool := false
deriving DecidableEq

/-- What a command does to selection and clipboard. -/
inductive ClipboardRole
  | mark | take | drop | paste | none
deriving DecidableEq

/-- The part that a keyword plays. -/
def Keyword.clipboardRole : Keyword → ClipboardRole
  | .mark | .markVert => .mark
  | .copy | .cut => .take
  | .erase | .through => .drop
  | .paste | .pasteVert => .paste
  | _ => .none

namespace ClipboardNotes

/-- The notes after a command. -/
def after (n : ClipboardNotes) (c : Command) : ClipboardNotes :=
  match c.keyword.clipboardRole with
  | .mark => { n with selecting := true }
  | .take => ⟨false, true⟩
  | .drop => { n with selecting := false }
  | .paste => { n with waiting := false }
  | .none => n

/-- The problems with a command, as the notes stand before it. -/
def problems (n : ClipboardNotes) (c : Command) : List Problem :=
  match c.keyword.clipboardRole with
  | .mark => (if n.selecting then [.stillSelecting c] else []) ++
      if n.waiting then [.neverPasted c] else []
  | .take | .drop => if n.selecting then [] else [.noSelection c]
  | .paste => (if n.waiting then [] else [.nothingCopied c]) ++
      if n.selecting then [.pastedInSelection c] else []
  | .none => []

/-- The problems with some commands in turn. -/
def allProblems : ClipboardNotes → List Command → List Problem
  | _, [] => []
  | n, c :: cs => n.problems c ++ allProblems (n.after c) cs

end ClipboardNotes

/-- The problems with the use of selection and clipboard. -/
def Audit.clipboard (steps : List Command) : Except Fault (List Problem) :=
  Problem.report (ClipboardNotes.allProblems {} steps)

end UndoScript

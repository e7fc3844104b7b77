/-
# What programs report of themselves

A journal has notes, which are kept only if asked for, and errors. Each entry
is a line with its level. A lone byte in it is written as its escape.

A run of a program comes to a status, or a failure that the program lets
through, and to what it wrote on the way. A command line that is wrong or asks
for help is answered without a run.

Key definitions: `Entry`, `Journal.lines`, `Outcome`, `Notice`, `Ending`.
-/
import UndoScript.CommandLine.Arguments
import UndoScript.FileTree

namespace UndoScript

/-- An entry of a journal. -/
inductive Entry
  | info (message : Text)
  | error (message : Text)
deriving DecidableEq

namespace Journal

/-- The text with lone bytes written as their escapes. -/
def legible (t : Text) : Text :=
  t.flatMap fun g => match g with
    | .char c => [.char c]
    | .byte low => Quoted.escapeByte low

/-- An entry's line; notes have one only if they are asked for. -/
def line (verbose : Bool) : Entry → Text
  | .info message =>
    if verbose then Text.concat ["INFO:root:", legible message, "\n"] else []
  | .error message => Text.concat ["ERROR:root:", legible message, "\n"]

/-- The lines of the entries. -/
def lines (verbose : Bool) (entries : List Entry) : Text := entries.flatMap (line verbose)

end Journal

/-- Lines, each with a line feed after it. -/
def Text.ofLines (ls : List Text) : Text := ls.flatMap fun l => l ++ [Glyph.newline]

/-- What a run of a program came to. -/
structure Outcome where
  /-- The status, or the failure that the program let through. -/
  status : Except Fault Nat
  /-- The text that was written. -/
  written : Text
  /-- The journal, the first entry first. -/
  journal : List Entry

/-- What a program answers where its command line is all that counts. -/
structure Notice where
  status : Nat
  /-- How to call the program, on the standard output. -/
  usage : Text
  /-- What stands on the standard error. -/
  errors : Text

/-- What a program leaves behind. -/
structure Ending where
  /-- The status, or the failure that the program let through. -/
  status : Except Fault Nat
  /-- How to call the program, where that is all the answer. -/
  usage : Text
  /-- What the program wrote. -/
  written : Text
  /-- What stands on the standard error. -/
  errors : Text
  /-- The files as the program left them. -/
  files : FileTree

/-- A program that only answers leaves the files as they are. -/
def Notice.ending (n : Notice) (files : FileTree) : Ending :=
  ⟨.ok n.status, n.usage, [], n.errors, files⟩

/-- The answer to a command line that stops the program. -/
def Notice.ofStop (program : String) (usage : Text) : Stop → Notice
  | .help => ⟨0, usage, []⟩
  | .error e =>
    ⟨2, [], usage ++ Text.concat [program, ": error: ", Journal.legible e.message, "\n"]⟩

end UndoScript

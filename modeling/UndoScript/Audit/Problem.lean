/-
# What can be wrong with a script

Each problem that a check can report, with the commands or arguments it is
about, and its message. Problems are reported in words, and a number in them
that is too large to be written makes the report fail.

Key definitions: `Problem`, `Problem.message`, `Problem.Renders`,
`Problem.report`.
Key theorems: `Problem.report_eq_ok_iff`, `Problem.report_eq_nil_iff`.
-/
import UndoScript.Command.Basic

namespace UndoScript

/-- A problem with a script. -/
inductive Problem
  /-- A line is no command. -/
  | badLine (lineno : Int) (line : Text) (why : LineFault)
  /-- A binary script sets what only a text script may. -/
  | textSettings
  /-- The opening has other commands than OPEN, TURBO first. -/
  | otherOpening (keywords : List Keyword)
  /-- Another document is opened. -/
  | otherTarget (opened : Operand) (target : Text)
  /-- The last commands are not the closing ones. -/
  | otherClosing (keywords : List Keyword)
  /-- The last UNDO and REDO do not go equally deep. -/
  | depthsDiffer (undone redone : Operand)
  /-- A file is saved under another name. -/
  | savedElsewhere (saved : Operand) (base : Text) (ending : String)
  /-- A selection opens in a selection. -/
  | stillSelecting (c : Command)
  /-- A selection opens while the clipboard is full. -/
  | neverPasted (c : Command)
  /-- A selection is used that is not open. -/
  | noSelection (c : Command)
  /-- An empty clipboard is pasted. -/
  | nothingCopied (c : Command)
  /-- The clipboard is pasted into a selection. -/
  | pastedInSelection (c : Command)
  /-- A text is not quoted, or empty. -/
  | unquoted (c : Command)
  /-- A text is no piece of the document. -/
  | notFound (c : Command)
deriving DecidableEq

namespace Problem

/-- The names of some keywords, as a list in brackets. -/
def listed (keywords : List Keyword) : Text :=
  Text.concat ["[", Text.joined ", " (keywords.map fun k => Text.quoted k.name), "]"]

/-- The names of some keywords with spaces between them. -/
def spaced (keywords : List Keyword) : Text :=
  Text.joined " " (keywords.map fun k => Text.ofString k.name)

/-- The commands that close every script. -/
def closing : List Keyword := [.saveAs, .undo, .saveAs, .redo, .saveAs, .exit]

/-- The problem in words. -/
def message : Problem → Text
  | .badLine lineno line why => Fault.lineMessage lineno line why
  | .textSettings => "binary preamble should not toggle bracket matching or UTF-8"
  | .otherOpening keywords =>
    Text.concat ["preamble should start with OPEN, TURBO, got ", listed keywords]
  | .otherTarget opened target =>
    Text.concat ["OPEN ", opened.shown, " is not the target ", target.quoted]
  | .otherClosing keywords =>
    Text.concat ["trailer should be ", spaced closing, ", got ", spaced keywords]
  | .depthsDiffer undone redone =>
    Text.concat ["UNDO ", undone.plain, " and REDO ", redone.plain, " should match"]
  | .savedElsewhere saved base ending =>
    Text.concat ["SAVEAS ", saved.shown, " should save ", base, ending]
  | .stillSelecting c => c.text ++ Text.ofString ": selection already open"
  | .neverPasted c => c.text ++ Text.ofString ": clipboard was never pasted"
  | .noSelection c => c.text ++ Text.ofString ": no selection"
  | .nothingCopied c => c.text ++ Text.ofString ": nothing copied"
  | .pastedInSelection c => c.text ++ Text.ofString ": selection still open"
  | .unquoted c => c.text ++ Text.ofString ": expected a non-empty quoted string"
  | .notFound c => c.text ++ Text.ofString ": not found in corpus"

/-- Can the problem be put in words? Only a number that is too large cannot be written. -/
def Renders : Problem → Prop
  | .badLine lineno _ _ => Numeral.Writable lineno
  | .textSettings | .otherOpening _ | .otherClosing _ => True
  | .otherTarget opened _ => opened.Renders
  | .depthsDiffer undone redone => undone.Renders ∧ redone.Renders
  | .savedElsewhere saved _ _ => saved.Renders
  | .stillSelecting c | .neverPasted c | .noSelection c | .nothingCopied c | .pastedInSelection c
  | .unquoted c | .notFound c => c.Renders

instance (p : Problem) : Decidable p.Renders := by
  unfold Renders
  split <;> infer_instance

/-- The problems, if all of them can be put in words. -/
def report (ps : List Problem) : Except Fault (List Problem) :=
  if ∀ p ∈ ps, p.Renders then .ok ps else .error .numberTooLarge

/-- What is reported are the problems as they are. -/
theorem report_eq_ok_iff {ps found : List Problem} :
    report ps = .ok found ↔ found = ps ∧ ∀ p ∈ ps, p.Renders := by
  unfold report
  split
  · next h => exact ⟨fun he => ⟨(Except.ok.inj he).symm, h⟩, fun he => he.1 ▸ rfl⟩
  · next h => exact iff_of_false nofun fun he => h he.2

/-- No problem is no problem to report. -/
theorem report_eq_nil_iff {ps : List Problem} : report ps = .ok [] ↔ ps = [] := by
  rw [report_eq_ok_iff, eq_comm]
  exact and_iff_left_of_imp fun h => by simp [h]

end Problem
end UndoScript

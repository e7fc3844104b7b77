/-
# What can go wrong

Every way to fail is a cause with its data, and each cause has one message. The
message is put together as soon as something fails, and a number in it that is
too large to be written is then the failure.

Refusals are the user's to mend: a document that cannot be read, a bad option,
a line that is no command. Broken rules are assertions of the library itself.
The rest are the limits of numbers, draws and paths.

Key definitions: `Fault`, `BrokenRule`, `LineFault`, `FileFailure`,
`Fault.message`, `Fault.inWords`, `Fault.isRefusal`.
Key theorem: `Fault.inWords_of_renders`.
-/
import UndoScript.Command.Argument
import UndoScript.Literal

namespace UndoScript

/-- Why a line is no command. -/
inductive LineFault
  | unknownCommand
  | takesNothing (k : Keyword)
  | expectsNumber (k : Keyword)
  | unterminatedString
  | other (reason : Text)
deriving DecidableEq

/-- A rule of the library that a caller broke. -/
inductive BrokenRule
  | unknownKeyword (name : Text)
  | takesNothing (k : Keyword)
  | expectsNumber (k : Keyword) (operand : Operand)
  | expectsString (k : Keyword) (operand : Operand)
  | onlyTextQuoted
  | spansLines (k : Keyword)
  | fragileToken (name : Text) (operand : Operand)
  | emptyLineSampled
  | negativeMutations (n : Int)
  | selectionOpen
  | clipboardFull
  | noSelection
  | nothingToPaste
  | drawOutOfRange (r : Int)
deriving DecidableEq

/-- Why a file cannot be opened. -/
inductive FileFailure
  | notFound
  | isDirectory
  | notDirectory
  | other (code : Nat) (reason : Text)
deriving DecidableEq

/-- A cause of failure. -/
inductive Fault
  /-- A file cannot be opened. -/
  | fileUnavailable (path : Text) (why : FileFailure)
  /-- The document's file cannot be read. -/
  | documentUnavailable (path reason : Text)
  /-- The document has no line to take text from. -/
  | documentEmpty
  /-- The value of the TURBO command must be positive. -/
  | turboNotPositive (n : Int)
  /-- The depth of the last UNDO and REDO must be positive. -/
  | undoDepthNotPositive (n : Int)
  /-- The value is no step count. -/
  | stepCountRefused (value : Literal)
  /-- The line is no command. -/
  | badLine (lineno : Int) (line : Text) (why : LineFault)
  /-- A rule of the library was broken. -/
  | broken (rule : BrokenRule)
  /-- A run of digits is too long to be read as a number. -/
  | numeralTooLong (digits : Nat)
  /-- A number is too large to be written. -/
  | numberTooLarge
  /-- A draw was asked for from no values at all. -/
  | emptyRange
  /-- No line of the document has this index. -/
  | noSuchLine
  /-- The count of mutations was set below zero. -/
  | negativeSquareRoot
  /-- A path holds the zero character. -/
  | zeroInPath

namespace FileFailure

/-- The reason in words. -/
def reason : FileFailure → Text
  | .notFound => "No such file or directory"
  | .isDirectory => "Is a directory"
  | .notDirectory => "Not a directory"
  | .other _ reason => reason

/-- The system's number for the reason. -/
def code : FileFailure → Nat
  | .notFound => 2
  | .isDirectory => 21
  | .notDirectory => 20
  | .other code _ => code

end FileFailure

namespace LineFault

/-- The reason in words. -/
def message : LineFault → Text
  | .unknownCommand => "unknown command"
  | .takesNothing k => Text.concat [k.name, " takes no argument"]
  | .expectsNumber k => Text.concat [k.name, " expects a number"]
  | .unterminatedString => "unterminated string"
  | .other reason => reason

end LineFault

namespace BrokenRule

/-- The rule in words. -/
def message : BrokenRule → Text
  | .unknownKeyword name => Text.concat ["Command: unknown keyword ", name]
  | .takesNothing k => Text.concat [k.name, " takes no argument"]
  | .expectsNumber k operand => Text.concat [k.name, " expects a number, got ", operand.shown]
  | .expectsString k operand => Text.concat [k.name, " expects a string, got ", operand.shown]
  | .onlyTextQuoted => "only strings can be quoted"
  | .spansLines k => Text.concat [k.name, ": argument spans lines"]
  | .fragileToken name operand =>
    Text.concat [name, ": bare token ", operand.shown, " would not survive parsing"]
  | .emptyLineSampled => "sample_substring: expected non-empty line"
  | .negativeMutations n => Text.concat ["negative mutation count ", Numeral.written n]
  | .selectionOpen => "start_block: selection already open"
  | .clipboardFull => "start_block: clipboard should be pasted first"
  | .noSelection => "end_block: no selection open"
  | .nothingToPaste => "paste: nothing to paste"
  | .drawOutOfRange r => Text.concat ["category draw ", Numeral.written r, " out of range"]

/-- Can every number in these words be written? -/
def Renders : BrokenRule → Prop
  | .expectsNumber _ operand | .expectsString _ operand | .fragileToken _ operand => operand.Renders
  | .negativeMutations n | .drawOutOfRange n => Numeral.Writable n
  | _ => True

instance (rule : BrokenRule) : Decidable rule.Renders := by
  unfold Renders
  split <;> infer_instance

end BrokenRule

namespace Fault

/-- How a message about a line is put: its number, the reason, and the line itself. -/
def lineMessage (lineno : Int) (line : Text) (why : LineFault) : Text :=
  Text.concat ["line ", Numeral.written lineno, ": ", why.message, ": ", line.quoted]

/-- The failure in words. -/
def message : Fault → Text
  | .fileUnavailable path why =>
    Text.concat ["[Errno ", Numeral.digits why.code, "] ", why.reason, ": ", path.quoted]
  | .documentUnavailable path reason =>
    Text.concat ["can't read corpus ", path.quoted, if reason.isEmpty then [] else ": " ++ reason]
  | .documentEmpty => "corpus has no non-empty lines"
  | .turboNotPositive n => Text.concat ["turbo must be positive, got ", Numeral.written n]
  | .undoDepthNotPositive n => Text.concat ["undo_depth must be positive, got ", Numeral.written n]
  | .stepCountRefused value =>
    Text.concat ["step count must be a non-negative integer, got ", value.shown]
  | .badLine lineno line why => lineMessage lineno line why
  | .broken rule => rule.message
  | .numeralTooLong digits =>
    Text.concat ["Exceeds the limit (4300 digits) for integer string conversion: value has ",
      Numeral.digits digits, " digits; use sys.set_int_max_str_digits() to increase the limit"]
  | .numberTooLarge =>
    Text.concat ["Exceeds the limit (4300 digits) for integer string conversion; ",
      "use sys.set_int_max_str_digits() to increase the limit"]
  | .emptyRange => "empty range for randrange()"
  | .noSuchLine => "tuple index out of range"
  | .negativeSquareRoot => "isqrt() argument must be nonnegative"
  | .zeroInPath => "embedded null byte"

/-- Can every number in the message be written? -/
def Renders : Fault → Prop
  | .turboNotPositive n | .undoDepthNotPositive n => Numeral.Writable n
  | .stepCountRefused value => value.isWritable = true
  | .badLine lineno _ _ => Numeral.Writable lineno
  | .broken rule => rule.Renders
  | _ => True

instance (f : Fault) : Decidable f.Renders := by
  unfold Renders
  split <;> infer_instance

/-- The failure that comes of putting this one into words. -/
def inWords (f : Fault) : Fault := if f.Renders then f else .numberTooLarge

theorem inWords_of_renders {f : Fault} (h : f.Renders) : f.inWords = f := if_pos h

@[simp] theorem inWords_spansLines (k : Keyword) :
    (broken (.spansLines k)).inWords = .broken (.spansLines k) := inWords_of_renders trivial

/-- Is the failure one that the user can mend, and that a program reports as an error of its own? -/
def isRefusal : Fault → Bool
  | .documentUnavailable .. | .documentEmpty | .turboNotPositive _ | .undoDepthNotPositive _
  | .stepCountRefused _ | .badLine .. => true
  | _ => false

end Fault
end UndoScript

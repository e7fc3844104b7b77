/-
# What follows a keyword

A command has no argument, a number, or a text; a text is written bare or
between double quotes. Quoting is a matter of how a text is written, so the
operand of an argument leaves it out.

Key definitions: `Argument`, `Operand`, `Argument.operand`, `Argument.Fits`.
-/
import UndoScript.Keyword
import UndoScript.Text.Quoted
import UndoScript.Text.Numeral

namespace UndoScript

/-- What a command is applied to. -/
inductive Operand
  | absent
  | number (n : Int)
  | text (t : Text)
deriving DecidableEq

/-- What follows a keyword on its line. -/
inductive Argument
  | absent
  | number (n : Int)
  | bare (t : Text)
  | quoted (t : Text)
deriving DecidableEq

/-- The operand as a message shows it. -/
def Operand.shown : Operand → Text
  | .absent => "None"
  | .number n => Numeral.written n
  | .text t => t.quoted

/-- The operand as it is, a text without quotes. -/
def Operand.plain : Operand → Text
  | .absent => "None"
  | .number n => Numeral.written n
  | .text t => t

/-- Can the operand be written? Only a number that is too large cannot. -/
def Operand.Renders : Operand → Prop
  | .number n => Numeral.Writable n
  | _ => True

instance : (o : Operand) → Decidable o.Renders
  | .absent | .text _ => inferInstanceAs (Decidable True)
  | .number n => inferInstanceAs (Decidable (Numeral.Writable n))

/-- The operand written without quotes. -/
def Operand.unquoted : Operand → Argument
  | .absent => .absent
  | .number n => .number n
  | .text t => .bare t

namespace Argument

/-- The operand, however it is written. -/
def operand : Argument → Operand
  | .absent => .absent
  | .number n => .number n
  | .bare t => .text t
  | .quoted t => .text t

/-- Is the argument a text between quotes? -/
def isQuoted : Argument → Bool
  | .quoted _ => true
  | _ => false

/-- An argument fits a keyword of its kind, and a text must stay on one line. -/
def Fits (k : Keyword) : Argument → Prop
  | .absent => True
  | .number _ => k.kind = .number
  | .bare t => k.kind = .string ∧ Glyph.newline ∉ t
  | .quoted t => k.kind = .string ∧ Glyph.newline ∉ t

instance (k : Keyword) : (a : Argument) → Decidable (a.Fits k)
  | .absent => inferInstanceAs (Decidable True)
  | .number _ => inferInstanceAs (Decidable (_ = _))
  | .bare _ => inferInstanceAs (Decidable (_ ∧ _))
  | .quoted _ => inferInstanceAs (Decidable (_ ∧ _))

@[simp] theorem operand_unquoted (o : Operand) : o.unquoted.operand = o := by cases o <;> rfl

end Argument
end UndoScript

/-
# Commands

A command is a keyword with an argument that fits it, so a number stands only
after a keyword that takes one and a text never spans lines. Its line is the
keyword, a space and the argument; a quote inside a quoted text is written as
it is, since the editor has no escape for it.

Key definitions: `Command`, `Command.make`, `Command.number`, `Command.token`,
`Command.string`, `Command.text`, `Command.render`.
Key theorems: `Command.make_of_fits`, `Command.make_eq_error_iff`.
-/
import UndoScript.Fault
import UndoScript.Text.Blank

namespace UndoScript

/-- A keyword with an argument that fits it. -/
structure Command where
  keyword : Keyword
  argument : Argument
  fits : argument.Fits keyword
deriving DecidableEq

/-- The rule that an argument breaks which does not fit the keyword. -/
def Argument.misfit (k : Keyword) (a : Argument) : BrokenRule :=
  match k.kind, a with
  | .nothing, _ => .takesNothing k
  | .number, _ => .expectsNumber k a.operand
  | .string, .number _ => .expectsString k a.operand
  | .string, _ => .spansLines k

/-- A text that stays in one piece when it is written bare: not empty, no blank at either end. -/
def Text.isSturdy (t : Text) : Bool :=
  !t.isEmpty && !(t.head?.any Glyph.isBlank) && t.trim Glyph.isBlank == t

namespace Command

/-- The command with this keyword and argument, if they fit. -/
def make (k : Keyword) (a : Argument) : Except Fault Command :=
  if h : a.Fits k then .ok ⟨k, a, h⟩ else .error (Fault.broken (a.misfit k)).inWords

/-- The keyword alone. -/
def plain (k : Keyword) : Command := ⟨k, .absent, trivial⟩

/-- The keyword with a number. -/
def number (k : Keyword) (n : Int) : Except Fault Command := make k (.number n)

/-- The keyword with a bare text, which must be sturdy. -/
def token (k : Keyword) (t : Text) : Except Fault Command :=
  if t.isSturdy then make k (.bare t) else .error (.broken (.fragileToken k.name (.text t)))

/-- The keyword with a text between quotes. -/
def string (k : Keyword) (t : Text) : Except Fault Command := make k (.quoted t)

/-- The line that spells the command. -/
def text (c : Command) : Text :=
  match c.argument with
  | .absent => c.keyword.name
  | .number n => Text.concat [c.keyword.name, " ", Numeral.written n]
  | .bare t => Text.concat [c.keyword.name, " ", t]
  | .quoted t => Text.concat [c.keyword.name, " \"", t, "\""]

/-- Can the command be written? Only a number that is too large cannot. -/
def Renders (c : Command) : Prop :=
  match c.argument with
  | .number n => Numeral.Writable n
  | _ => True

instance (c : Command) : Decidable c.Renders := by
  unfold Renders
  split <;> infer_instance

/-- The line that spells the command, if it can be written. -/
def render (c : Command) : Except Fault Text :=
  if c.Renders then .ok c.text else .error .numberTooLarge

/-- The lines that spell the commands, or the failure of the first that cannot be written. -/
def renderAll (cs : List Command) : Except Fault (List Text) := cs.mapM render

/-! ### Making commands -/

theorem make_of_fits {k : Keyword} {a : Argument} (h : a.Fits k) : make k a = .ok ⟨k, a, h⟩ := by
  simp [make, h]

/-- **A command is refused exactly if its argument does not fit.** -/
theorem make_eq_error_iff {k : Keyword} {a : Argument} {f : Fault} :
    make k a = .error f ↔ ¬ a.Fits k ∧ f = (Fault.broken (a.misfit k)).inWords := by
  unfold make
  split
  · simp_all
  · simp_all [eq_comm]

theorem make_eq_ok_iff {k : Keyword} {a : Argument} {c : Command} :
    make k a = .ok c ↔ c.keyword = k ∧ c.argument = a := by
  constructor
  · intro h
    unfold make at h
    split at h
    · cases h
      exact ⟨rfl, rfl⟩
    · cases h
  · rintro ⟨rfl, rfl⟩
    exact make_of_fits c.fits

end Command
end UndoScript

/-
# Step counts

A step count is a whole number from 0 up, or a text that spells one in the
digits `0` to `9`, with white space around it or not.

Key definitions: `StepCount.refusal`, `StepCount.ofLiteral`.
-/
import UndoScript.Fault
import UndoScript.Text.Blank

namespace UndoScript
namespace StepCount

/-- The refusal of a value. -/
def refusal (value : Literal) : Fault := (Fault.stepCountRefused value).inWords

/-- The step count that a text spells. -/
def ofText (t : Text) : Except Fault Nat :=
  let digits := t.trim Glyph.isBlank
  if Numeral.isNumeral digits then
    if digits.length ≤ Numeral.limit then .ok (Numeral.value digits)
    else .error (.numeralTooLong digits.length)
  else .error (refusal (.text t))

/-- The step count that a value stands for. -/
def ofLiteral : Literal → Except Fault Nat
  | .text t => ofText t
  | .whole (.ofNat n) => .ok n
  | value => .error (refusal value)

end StepCount
end UndoScript

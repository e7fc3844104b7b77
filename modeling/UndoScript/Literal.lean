/-
# Values as they are given

A step count is asked for with a value of any kind, and most kinds are
refused. The refusal shows the value: texts quoted, numbers in decimal, lists
between brackets.

Key definitions: `Literal`, `Literal.shown`, `Literal.isWritable`.
-/
import UndoScript.Text.Quoted
import UndoScript.Text.Numeral

namespace UndoScript

/-- A value of any kind. A number with a fractional part is kept as it is spelled. -/
inductive Literal
  | null
  | truth (b : Bool)
  | whole (n : Int)
  | decimal (spelling : Text)
  | text (t : Text)
  | list (items : List Literal)

namespace Literal

mutual

/-- The value as a message shows it. -/
def shown : Literal → Text
  | .null => "None"
  | .truth true => "True"
  | .truth false => "False"
  | .whole n => Numeral.written n
  | .decimal spelling => spelling
  | .text t => t.quoted
  | .list items => Text.concat ["[", Text.joined ", " (shownAll items), "]"]

/-- The values as a message shows them, one by one. -/
def shownAll : List Literal → List Text
  | [] => []
  | item :: items => shown item :: shownAll items

end

mutual

/-- Is every whole number in the value short enough to be written? -/
def isWritable : Literal → Bool
  | .whole n => decide (Numeral.Writable n)
  | .list items => allWritable items
  | _ => true

/-- Are all the values writable? -/
def allWritable : List Literal → Bool
  | [] => true
  | item :: items => isWritable item && allWritable items

end

end Literal
end UndoScript

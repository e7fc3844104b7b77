/-
# Categories of steps

Each step belongs to one of seven categories. A draw from 0 to 99 settles
which: every category has a bound, and the first bound above the draw wins, so
text comes up four times as often as anything else.

Key definitions: `Category`, `Category.bounds`, `Category.ofDraw`,
`Category.mutates`, `Tally`.
-/
import UndoScript.Fault

namespace UndoScript

/-- The categories of steps. -/
inductive Category
  | navigation | flags | deletion | clipboard | editing | atomic | text
deriving DecidableEq

namespace Category

/-- All categories, in order. -/
def all : List Category := [.navigation, .flags, .deletion, .clipboard, .editing, .atomic, .text]

/-- The category's name in messages. -/
def name : Category → String
  | .navigation => "navigation"
  | .flags => "flags"
  | .deletion => "deletion"
  | .clipboard => "clipboard"
  | .editing => "editing"
  | .atomic => "atomic"
  | .text => "text"

/-- The bounds on the draw, lowest first; what none is above goes to text. -/
def bounds : List (Nat × Category) :=
  [(10, .navigation), (20, .flags), (30, .deletion), (40, .clipboard), (50, .editing),
   (60, .atomic)]

/-- The category that a draw below 100 settles. -/
def settledBy (r : Nat) : Category :=
  match bounds.find? fun (bound, _) => r < bound with
  | some (_, category) => category
  | none => .text

/-- The category of a draw, which must be one of 0 to 99. -/
def ofDraw (r : Int) : Except Fault Category :=
  if 0 ≤ r ∧ r < 100 then .ok (settledBy r.toNat)
  else .error (Fault.broken (.drawOutOfRange r)).inWords

/-- Do the steps of the category count as changes of the document? -/
def mutates (c : Category) : Bool := c == .deletion || c == .text

end Category

/-- How many steps of each category have been taken. -/
structure Tally where
  navigation : Nat := 0
  flags : Nat := 0
  deletion : Nat := 0
  clipboard : Nat := 0
  editing : Nat := 0
  atomic : Nat := 0
  text : Nat := 0
deriving DecidableEq

namespace Tally

/-- No steps taken. -/
def zero : Tally := {}

/-- The steps of one category. -/
def count (t : Tally) : Category → Nat
  | .navigation => t.navigation
  | .flags => t.flags
  | .deletion => t.deletion
  | .clipboard => t.clipboard
  | .editing => t.editing
  | .atomic => t.atomic
  | .text => t.text

/-- One more step of a category. -/
def bump (t : Tally) : Category → Tally
  | .navigation => { t with navigation := t.navigation + 1 }
  | .flags => { t with flags := t.flags + 1 }
  | .deletion => { t with deletion := t.deletion + 1 }
  | .clipboard => { t with clipboard := t.clipboard + 1 }
  | .editing => { t with editing := t.editing + 1 }
  | .atomic => { t with atomic := t.atomic + 1 }
  | .text => { t with text := t.text + 1 }

theorem count_bump (t : Tally) (c d : Category) :
    (t.bump c).count d = t.count d + if c = d then 1 else 0 := by
  cases c <;> cases d <;> rfl

end Tally
end UndoScript

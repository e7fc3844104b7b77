/-
# Draws given in advance

A tape answers with given numbers, each reduced to the bound that is asked
for, and with 0 once they are used up. It also remembers the bounds.

Key definitions: `Tape`, `Tape.below`.
-/
import UndoScript.Chance.Sampler

namespace UndoScript

/-- The draws still to come, and the bounds asked for so far, the last one first. -/
structure Tape where
  draws : List Nat
  asked : List Nat

/-- The next draw, reduced to the bound. -/
def Tape.below (n : Nat) (positive : 0 < n) (t : Tape) : Fin n × Tape :=
  match t.draws with
  | [] => (⟨0, positive⟩, { t with asked := n :: t.asked })
  | d :: draws => (⟨d % n, Nat.mod_lt d positive⟩, ⟨draws, n :: t.asked⟩)

instance : Source Tape := ⟨Tape.below⟩

end UndoScript

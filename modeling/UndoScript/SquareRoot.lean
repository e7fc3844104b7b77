/-
# Square roots, rounded down

Newton's iteration from above: as long as the mean of a guess and of the
number divided by it is smaller, it is the better guess.

Key definitions: `SquareRoot.descend`, `squareRoot`.
-/

namespace UndoScript

/-- The guesses from `guess` on, down to the last one. -/
def SquareRoot.descend (n guess : Nat) : Nat :=
  let next := (guess + n / guess) / 2
  if _h : next < guess then descend n next else guess
termination_by guess

/-- The largest number whose square is at most `n`. -/
def squareRoot (n : Nat) : Nat :=
  if n ≤ 1 then n else SquareRoot.descend n (1 <<< (n.log2 / 2 + 1))

end UndoScript

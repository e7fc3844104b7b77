/-
# What is remembered between steps

Whether a selection is open, whether the clipboard holds something that has
not been pasted, and how many steps have changed the document. A selection
opens only with an empty clipboard, so that all that is copied gets pasted.

Key definitions: `Memory`, `Memory.openSelection`, `Memory.closeSelection`,
`Memory.paste`, `Memory.changed`, `Memory.undoBound`.
-/
import UndoScript.Fault
import UndoScript.SquareRoot

namespace UndoScript

/-- What is remembered between steps. -/
structure Memory where
  selecting : Bool := false
  clipboardFull : Bool := false
  mutations : Int := 0
deriving DecidableEq

namespace Memory

/-- Before the first step. -/
def fresh : Memory := {}

/-- A memory with given parts; the count must not be negative. -/
def ofParts (selecting clipboardFull : Bool) (mutations : Int) : Except Fault Memory :=
  if mutations < 0 then .error (Fault.broken (.negativeMutations mutations)).inWords
  else .ok { selecting, clipboardFull, mutations }

/-- One more step has changed the document. -/
def changed (m : Memory) : Memory := { m with mutations := m.mutations + 1 }

/-- A selection opens. -/
def openSelection (m : Memory) : Except Fault Memory :=
  if m.selecting then .error (.broken .selectionOpen)
  else if m.clipboardFull then .error (.broken .clipboardFull)
  else .ok { m with selecting := true }

/-- The selection closes; with `clip`, the clipboard takes what was selected. -/
def closeSelection (clip : Bool) (m : Memory) : Except Fault Memory :=
  if m.selecting then .ok { m with selecting := false, clipboardFull := m.clipboardFull || clip }
  else .error (.broken .noSelection)

/-- The clipboard is pasted, and so is free again. -/
def paste (m : Memory) : Except Fault Memory :=
  if m.clipboardFull && !m.selecting then .ok { m with clipboardFull := false }
  else .error (.broken .nothingToPaste)

/-- A pair of undo and redo goes less deep than this. -/
def undoBound (m : Memory) : Except Fault Nat :=
  if m.mutations < 0 then .error .negativeSquareRoot
  else .ok (squareRoot m.mutations.toNat + 1)

end Memory
end UndoScript

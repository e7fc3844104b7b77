/-
# The document

The lines of the document that a script edits; scripts take their text from
it and change it only when they run. The content of a line is the line
without its terminator, and lines with nothing else are never chosen where
text is needed.

A piece of a line starts in its first half and is at most half as long, so it
never reaches the last glyph of a line of two glyphs or more.

Key definitions: `Document`, `Document.ofText`, `Document.line`,
`Document.holds`, `Document.drawLine`, `Document.drawContent`, `drawPiece`,
`Document.drawFragment`.
-/
import UndoScript.Text.Lines
import UndoScript.Chance.Sampler

namespace UndoScript

/-- A document: its lines with their terminators, and those contents that are not empty. -/
structure Document where
  lines : List Text
  contents : List Text
  contents_eq : contents = (lines.map Text.content).filter fun t => !t.isEmpty

namespace Document

/-- The document with these lines. -/
def ofLines (lines : List Text) : Document := ⟨lines, _, rfl⟩

/-- The document that a text is. -/
def ofText (text : Text) : Document := ofLines text.lines

/-- Has some line content? -/
def hasContent (d : Document) : Bool := !d.contents.isEmpty

/-- The line with index `i`, counted from 0, or from the end if `i` is negative. -/
def rawLine (d : Document) (i : Int) : Except Fault Text :=
  let fromStart := if i < 0 then i + d.lines.length else i
  if fromStart < 0 then .error .noSuchLine
  else match d.lines[fromStart.toNat]? with
    | some line => .ok line
    | none => .error .noSuchLine

/-- The content of the line with index `i`, counted as for `Document.rawLine`. -/
def line (d : Document) (i : Int) : Except Fault Text := Text.content <$> d.rawLine i

/-- Does the piece occur in the content of some line? -/
def holds (d : Document) (piece : Text) : Bool := d.lines.any fun line => piece.occursIn line.content

/-- The content of any line, be it empty or not. -/
def drawLine (d : Document) : Sampler Text := Text.content <$> Sampler.choose d.lines

/-- The content of any line that has content. -/
def drawContent (d : Document) : Sampler Text :=
  if d.contents.isEmpty then .fail .documentEmpty else Sampler.choose d.contents

end Document

/-- A piece of a line: any start in its first half, any length up to half. -/
def drawPiece (line : Text) : Sampler Text :=
  if line.isEmpty then .fail (.broken .emptyLineSampled)
  else do
    let half := max 1 (line.length / 2)
    let start ← Sampler.drawFrom 0 half
    let length ← Sampler.drawFrom 1 half
    pure ((line.drop start).take length)

/-- A piece of any line that has content. -/
def Document.drawFragment (d : Document) : Sampler Text := do
  let line ← d.drawContent
  drawPiece line

end UndoScript

import UndoScript.Command.Draft
import UndoScript.Chance.Tape
import UndoScript.Session.Generate
import UndoScript.Main
import UndoScript.Proofs.Chance.Outcome
import UndoScript.Proofs.Text.Ink
import UndoScript.Proofs.Action.Extension
import UndoScript.Proofs.Action.Emission
import UndoScript.Proofs.Action.Language
import UndoScript.Proofs.Action.Tables
import UndoScript.Proofs.Action.Failure
import UndoScript.Proofs.Session.Step
import UndoScript.Proofs.Session.Parts
import UndoScript.Proofs.Session.Run
import UndoScript.Proofs.Session.Language
import UndoScript.Proofs.Text.Pieces
import UndoScript.Proofs.Session.Stream
import UndoScript.Proofs.Session.Generation
import UndoScript.Proofs.Command.RoundTrip
import UndoScript.Proofs.Text.Decimal
import UndoScript.Proofs.Audit.Steps
import UndoScript.Proofs.Audit.Parts
import UndoScript.Proofs.Session.Script
import UndoScript.Proofs.Audit.Agreement
import UndoScript.Proofs.Command.Faithful
import UndoScript.Proofs.CommandLine.Pipeline
import UndoScript.Proofs.Command.Legible
import UndoScript.Proofs.Audit.Rounds
import UndoScript.Proofs.Command.Refusal
import UndoScript.Proofs.Audit.Shape
import UndoScript.Proofs.Audit.Acceptance
import UndoScript.Proofs.Session.Course
import UndoScript.Proofs.Session.Use
import UndoScript.Proofs.Audit.Mirror
import UndoScript.Proofs.CommandLine.Numbers
import UndoScript.Proofs.CommandLine.Agreement
import UndoScript.Proofs.Session.Making
import UndoScript.Proofs.Session.Pulls
import UndoScript.Proofs.Text.Octets
import UndoScript.Proofs.CommandLine.Verbatim
import UndoScript.Proofs.Action.Attribution
import UndoScript.Proofs.Session.Accounts
import UndoScript.Proofs.Audit.Law
import UndoScript.Proofs.Audit.Lockstep
import UndoScript.Proofs.Command.Normal
import UndoScript.Proofs.Command.Token
import UndoScript.Proofs.Audit.Answer
import UndoScript.Proofs.Session.Draws
import UndoScript.Proofs.Audit.Histories
import UndoScript.Proofs.Session.Pairs
import UndoScript.Proofs.Session.InPlace
import UndoScript.Proofs.Text.Lines
import UndoScript.Proofs.Text.Place
import UndoScript.Proofs.Command.LineByLine
import UndoScript.Proofs.Document.Piece
import UndoScript.Proofs.Session.Syntax
import UndoScript.Proofs.Chance.Even
import UndoScript.Proofs.Document.Choice

/-
# Reading scripts

A line is read as a keyword, in any case, up to the first space, and then an
argument: digits after a keyword that takes a number, and after one that takes
a string either a text between the first double quote and the last, or the
rest of the line. Spaces and tabs before the keyword and before the argument
do not count, and neither do line feeds at the end. A script is its lines,
without the blank ones.

A line that is no command is refused in words that name its number, so that a
number too large to be written takes the place of the refusal.

Key definitions: `Command.parseArgument`, `Command.read`, `Command.parse`,
`Script.parse`.
Key theorems: `Command.parse_eq_ok_iff`, `Command.parse_eq_error_iff_read`.
-/
import UndoScript.Command.Basic
import UndoScript.Text.Capital
import UndoScript.Text.Lines

namespace UndoScript

/-- The blanks that may stand before a keyword and before an argument. -/
def Glyph.isIndent (g : Glyph) : Bool := g == .char ' ' || g == .char '\t'

namespace Command

/-- The text of a line without the line feeds at its end. -/
def lineText (line : Text) : Text := line.trimEnd (· == .newline)

/-- The first word of a line, up to a space. -/
def firstWord (line : Text) : Text := (line.trimStart Glyph.isIndent).takeWhile (· != .char ' ')

/-- What follows the first word of a line and the space after it. -/
def afterFirstWord (line : Text) : Text :=
  let fromBlank := (line.trimStart Glyph.isIndent).dropWhile (· != .char ' ')
  Text.trimStart Glyph.isIndent (fromBlank.drop 1)

/-- What the text between the quotes of a quoted argument is, if the quotes are there. -/
def unquote? (rest : Text) : Option Text :=
  if 2 ≤ rest.length && rest.getLast? == some (.char '"') then some rest.tail.dropLast else none

/-- The command that a keyword and a non-empty rest of its line make. -/
def parseArgument (lineno : Int) (line : Text) (k : Keyword) (rest : Text) : Except Fault Command :=
  match k.kind with
  | .nothing => throw (.badLine lineno line (.takesNothing k))
  | .number =>
    if Numeral.isNumeral rest then
      if rest.length ≤ Numeral.limit then number k (Numeral.value rest)
      else throw (.numeralTooLong rest.length)
    else throw (.badLine lineno line (.expectsNumber k))
  | .string =>
    if rest.head? = some (.char '"') then
      match unquote? rest with
      | some t => string k t
      | none => throw (.badLine lineno line .unterminatedString)
    else make k (.bare rest)

/-- The command that a line spells, or the reason why it spells none, which tells the line by its
number. -/
def read (line : Text) (lineno : Int) : Except Fault Command :=
  let content := lineText line
  match Keyword.ofName? (firstWord content).capitals with
  | none => throw (.badLine lineno content .unknownCommand)
  | some k =>
    let rest := afterFirstWord content
    if rest.isEmpty then pure (plain k) else parseArgument lineno content k rest

/-- The command that a line spells; if there is none, the reason is put into words. -/
def parse (line : Text) (lineno : Int) : Except Fault Command :=
  (read line lineno).mapError Fault.inWords

theorem parse_eq_ok_iff {line : Text} {lineno : Int} {c : Command} :
    parse line lineno = .ok c ↔ read line lineno = .ok c := by
  unfold parse
  cases read line lineno with
  | error f => exact iff_of_false nofun nofun
  | ok c' => exact Iff.rfl

theorem parse_eq_error_iff_read {line : Text} {lineno : Int} {f : Fault} :
    parse line lineno = .error f ↔ ∃ g, read line lineno = .error g ∧ f = g.inWords := by
  unfold parse
  cases read line lineno with
  | error g =>
    constructor
    · rintro ⟨⟩
      exact ⟨g, rfl, rfl⟩
    · rintro ⟨_, ⟨⟩, rfl⟩
      rfl
  | ok c => exact iff_of_false nofun fun ⟨_, h, _⟩ => nomatch h

end Command

namespace Script

/-- The lines of a script that are not blank, each with its number, counted from 1. -/
def numberedLines (text : Text) : List (Text × Nat) :=
  (text.pieces.zipIdx 1).filter fun (line, _) => !line.isBlank

/-- The commands that a script spells, or the failure of its first line that spells none. The lines
are counted, so their numbers can be written: no text is as long as that. -/
def parse (text : Text) : Except Fault (List Command) :=
  (numberedLines text).mapM fun (line, lineno) => Command.read line lineno

end Script
end UndoScript

/-
# Commands from loose parts

A caller that has only a name, an operand and a wish for quotes gets a command
if the name is a keyword, the operand is of its kind, and only a text is to be
quoted. The first rule that is broken is the one reported.

Key definitions: `Command.ofParts`, `Command.tokenNamed`.
-/
import UndoScript.Command.Basic

namespace UndoScript
namespace Command

/-- The command with the keyword of this name and the operand, quoted or not. -/
def ofParts (name : Text) (operand : Operand) (quoted : Bool) : Except Fault Command := do
  let some k := Keyword.ofName? name | throw (.broken (.unknownKeyword name))
  let unquoted ← make k operand.unquoted
  if quoted then
    match operand with
    | .text t => make k (.quoted t)
    | _ => throw (.broken .onlyTextQuoted)
  else
    pure unquoted

/-- As `Command.token`, from loose parts: the operand is judged before the name. -/
def tokenNamed (name : Text) (operand : Operand) : Except Fault Command :=
  match operand with
  | .text t =>
    if t.isSturdy then ofParts name operand false else throw (.broken (.fragileToken name operand))
  | _ => throw (Fault.broken (.fragileToken name operand)).inWords

end Command
end UndoScript

/-
# The program that checks scripts

The command line names a script and the document that it was made from, which
is also the file that the script should open. The document is read first.
Problems are written line by line, and there are none if the status is 0.

Key definitions: `Check.Request`, `Check.run`, `Check.inTree`.
-/
import UndoScript.Audit.Check
import UndoScript.CommandLine.Generate

namespace UndoScript
namespace Check

/-- The program's arguments. -/
def grammar : Grammar where
  options := [⟨["-h", "--help"], .help⟩, ⟨["-v", "--verbose"], .flag⟩]
  slots := ["script", "corpus"]
  required := true

/-- How to call the program. -/
def usage : Text := "usage: macrofuzz.replay [-h] [-v] script corpus\n"

/-- What the program is asked to do. -/
structure Request where
  script : Text
  document : Text
  verbose : Bool

/-- What a parsed command line asks for. -/
def Request.ofParsed (p : Parsed) : Request :=
  ⟨(p.slot? 0).getD [], (p.slot? 1).getD [], p.has "--verbose"⟩

/-- What a command line asks for, or the answer to it. -/
def request (arguments : List Text) : Except Notice Request :=
  match Arguments.parse grammar arguments with
  | .error stop => .error (.ofStop "macrofuzz.replay" usage stop)
  | .ok p => .ok (.ofParsed p)

/-- A failure to read a file: reported, if the file is at fault. -/
def failed (journal : List Entry) (f : Fault) : Outcome :=
  match f with
  | .fileUnavailable .. => ⟨.ok 1, [], journal ++ [.error f.message]⟩
  | f => Generate.failed journal f

/-- The note that a problem was found. A script that cannot be read gives none. -/
def note? : Problem → Option Entry
  | .badLine .. => none
  | p => some (.info (Text.concat ["check: ", p.message]))

/-- Does what a request asks for, with a way to read files. -/
def run (r : Request) (read : Reader) : Outcome :=
  match Document.load read r.document with
  | .error f => failed [] f
  | .ok (document, bytes) =>
    let journal := [.info (Generate.loadedNote r.document bytes document)]
    match read r.script with
    | .error f => failed journal f
    | .ok script =>
      match Audit.check (Utf8.decode script) document (some r.document) with
      | .error f => ⟨.error f, [], journal⟩
      | .ok problems =>
        ⟨.ok (if problems.isEmpty then 0 else 1), Text.ofLines (problems.map Problem.message),
          journal ++ problems.filterMap note?⟩

/-- The program in a directory. -/
def inTree (arguments : List Text) (files : FileTree) : Ending :=
  match request arguments with
  | .error notice => notice.ending files
  | .ok r =>
    let o := run r files.read
    ⟨o.status, [], o.written, Journal.lines r.verbose o.journal, files⟩

end Check
end UndoScript

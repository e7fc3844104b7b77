/-
# The program that writes scripts

The command line names the number of steps, the document, and with any third
word selects commands that are safe on binary files. Faults are reported in a
fixed order: the options, the step count, the document's file, a document
without content. A script is written as it is made, so what is written before
a failure stays.

Key definitions: `Generate.Request`, `Generate.request`, `Generate.run`,
`Generate.inTree`.
-/
import UndoScript.CommandLine.Journal
import UndoScript.Document.Load
import UndoScript.Session.Stream

namespace UndoScript
namespace Generate

/-- The program's arguments. -/
def grammar : Grammar where
  options :=
    [⟨["-h", "--help"], .help⟩, ⟨["-s", "--seed"], .integer⟩, ⟨["--turbo"], .integer⟩,
     ⟨["--no-replace-all"], .flag⟩, ⟨["-l", "--log"], .text⟩, ⟨["-v", "--verbose"], .flag⟩]
  slots := ["steps", "file", "binary"]
  required := false

/-- How to call the program. -/
def usage : Text :=
  Text.concat ["usage: macrofuzz [-h] [-s SEED] [--turbo TURBO] [--no-replace-all] [-l LOG]\n",
    "                 [-v]\n",
    "                 [steps] [file] [binary]\n"]

/-- What the program is asked to do. -/
structure Request where
  steps : Text
  file : Text
  binary : Bool
  seed : Option Int
  turbo : Int
  replaceAll : Bool
  /-- The file for the journal. -/
  log : Option Text
  verbose : Bool

/-- What a parsed command line asks for, if it names steps and a document. -/
def Request.ofParsed? (p : Parsed) : Option Request :=
  match p.slot? 0, p.slot? 1 with
  | some steps, some file => some
      { steps, file
        binary := (p.slot? 2).isSome
        seed := p.integer? "--seed"
        turbo := (p.integer? "--turbo").getD Options.standard.turbo
        replaceAll := !p.has "--no-replace-all"
        log := (p.text? "--log").filter fun path => !path.isEmpty
        verbose := p.has "--verbose" }
  | _, _ => none

/-- What a command line asks for, or the answer to it. Without a document that is how to call the
program. -/
def request (arguments : List Text) : Except Notice Request :=
  match Arguments.parse grammar arguments with
  | .error stop => .error (.ofStop "macrofuzz" usage stop)
  | .ok p =>
    match Request.ofParsed? p with
    | some r => .ok r
    | none => .error ⟨0, usage, []⟩

/-- The note that a document was read. -/
def loadedNote (path : Text) (bytes : Nat) (document : Document) : Text :=
  Text.concat ["loaded corpus ", path, ": ", Numeral.digits bytes, " bytes, ",
    Numeral.digits document.lines.length, " lines"]

/-- The options that a request has. -/
def Request.options (r : Request) : Except Fault Options :=
  Options.checked r.binary r.turbo Options.standard.matchBrackets Options.standard.toggleUtf8
    r.replaceAll Options.standard.undoDepth

/-- A failure before anything is written: reported, if it is the user's to mend. -/
def failed (journal : List Entry) (f : Fault) : Outcome :=
  if f.isRefusal then ⟨.ok 1, [], journal ++ [.error f.message]⟩ else ⟨.error f, [], journal⟩

/-- Writes the script for a document that has been read. -/
def write {σ : Type} [Source σ] (journal : List Entry) (setting : Setting) (n : Nat) (source : σ) :
    Outcome :=
  match setting.stepCount (.whole n) with
  | .error f => failed journal f
  | .ok n =>
    match (Stream.ready n).writeAll (Session.ofSetting setting source) with
    | ((lines, some f), _) => ⟨.error f, Text.ofLines lines, journal⟩
    | ((lines, none), s) =>
      ⟨.ok 0, Text.ofLines lines, journal ++ ((s.summary n).toOption.map Entry.info).toList⟩

/-- Does what a request asks for, with a way to read files and a source of chance. -/
def run {σ : Type} [Source σ] (r : Request) (read : Reader) (source : σ) : Outcome :=
  match r.options with
  | .error f => failed [] f
  | .ok options =>
    match StepCount.ofLiteral (.text r.steps) with
    | .error f => failed [] f
    | .ok n =>
      match Document.load read r.file with
      | .error f => failed [] f
      | .ok (document, bytes) =>
        write [.info (loadedNote r.file bytes document)] ⟨document, r.file, options⟩ n source

/-- The program in a directory. Its journal goes to the standard error or to a file, which is opened
before anything else is done. `seedSource` makes a source from the seed, if there is one. -/
def inTree {σ : Type} [Source σ] (arguments : List Text) (files : FileTree)
    (seedSource : Option Int → σ) : Ending :=
  match request arguments with
  | .error notice => notice.ending files
  | .ok r =>
    match r.log with
    | none =>
      let o := run r files.read (seedSource r.seed)
      ⟨o.status, [], o.written, Journal.lines r.verbose o.journal, files⟩
    | some path =>
      match files.write path [] with
      | .error f => ⟨.error f, [], [], [], files⟩
      | .ok opened =>
        let o := run r opened.read (seedSource r.seed)
        let journal := Utf8.encode (Journal.lines r.verbose o.journal)
        ⟨o.status, [], o.written, [], (opened.write path journal).toOption.getD opened⟩

end Generate
end UndoScript

/-
# The programs

Both programs in one: `check` as the first argument selects the one that
checks scripts, and anything else the one that writes them. Files are read and
written here; what is read and what is written is settled elsewhere.

Key definitions: `main`.
-/
import UndoScript.Chance.Twister
import UndoScript.CommandLine.Check

namespace UndoScript
namespace Main

/-- A text as a string; lone bytes have no place in one. -/
def toString (t : Text) : String :=
  String.ofList (t.filterMap fun g => match g with
    | .char c => some c
    | .byte _ => none)

/-- Why the system could not open a file. -/
def failureOf : IO.Error → FileFailure
  | .noFileOrDirectory .. => .notFound
  | .inappropriateType _ code _ =>
    if code = 20 || code = 0 - 20 then .notDirectory else .isDirectory
  | .permissionDenied .. => .other 13 "Permission denied"
  | e => .other 5 (Text.ofString e.toString)

/-- What a file holds. -/
def contents (path : Text) : IO (Except Fault (List UInt8)) := do
  if path.contains (.char '\x00') then return .error .zeroInPath
  try
    let bytes ← IO.FS.readBinFile (toString path)
    return .ok bytes.toList
  catch e => return .error (.fileUnavailable path (failureOf e))

/-- A way to read one file, or two, that have been read already. -/
def readerOf (known : List (Text × Except Fault (List UInt8))) : Reader := fun path =>
  (known.lookup path).getD (.error (.fileUnavailable path .notFound))

/-- Writes a text as bytes. -/
def put (stream : IO.FS.Stream) (t : Text) : IO Unit := do
  stream.write (ByteArray.mk (Utf8.encode t).toArray)
  stream.flush

/-- Tells what a run came to. -/
def tell (o : Outcome) : IO UInt32 := do
  put (← IO.getStdout) o.written
  match o.status with
  | .ok status => return UInt32.ofNat status
  | .error f =>
    put (← IO.getStderr) (Journal.legible f.message ++ [Glyph.newline])
    return 1

/-- Answers a command line that stops the program. -/
def answer (n : Notice) : IO UInt32 := do
  put (← IO.getStdout) n.usage
  put (← IO.getStderr) n.errors
  return UInt32.ofNat n.status

/-- A seed for runs that have none. -/
def anySeed : IO Int := do
  let bytes ← IO.getRandomBytes 16
  return (bytes.toList.foldl (fun n b => 256 * n + b.toNat) 0 : Nat)

/-- Writes a script. -/
def generate (arguments : List Text) : IO UInt32 := do
  match Generate.request arguments with
  | .error notice => answer notice
  | .ok r =>
    if let some path := r.log then IO.FS.writeBinFile (toString path) ByteArray.empty
    let document ← contents r.file
    let seed ← match r.seed with
      | some seed => pure seed
      | none => anySeed
    let o := Generate.run r (readerOf [(r.file, document)]) (Twister.ofSeed seed)
    let journal := Journal.lines r.verbose o.journal
    match r.log with
    | some path =>
      IO.FS.writeBinFile (toString path) (ByteArray.mk (Utf8.encode journal).toArray)
    | none => put (← IO.getStderr) journal
    tell o

/-- Checks a script. -/
def check (arguments : List Text) : IO UInt32 := do
  match Check.request arguments with
  | .error notice => answer notice
  | .ok r =>
    let known := [(r.document, ← contents r.document), (r.script, ← contents r.script)]
    let o := Check.run r (readerOf known)
    put (← IO.getStderr) (Journal.lines r.verbose o.journal)
    tell o

end Main
end UndoScript

/-- Runs the program that the first argument selects. -/
def main (arguments : List String) : IO UInt32 :=
  match arguments with
  | "check" :: rest => UndoScript.Main.check (rest.map UndoScript.Text.ofString)
  | rest => UndoScript.Main.generate (rest.map UndoScript.Text.ofString)

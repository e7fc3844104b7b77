/-
# Files and directories

Files are known by the names on the way to them from the root. A path that
starts with a slash is followed from there, any other from the directory that a
program is used in. It is followed name by name: a point stays, two points go
up, at the root nowhere, and only a file may end it.

A path to write to is made absolute first, with the points in it worked off as
they stand.

Key definitions: `FileTree`, `FileTree.find`, `FileTree.read`, `FileTree.put`,
`FileTree.write`.
-/
import UndoScript.Fault
import UndoScript.Text.Utf8

namespace UndoScript

/-- A file's or directory's name, as bytes. -/
abbrev FileName := List UInt8

/-- Files by the names on the way to them from the root, with what they hold, and the directory that
paths start in. -/
structure FileTree where
  home : List FileName
  files : List (List FileName × List UInt8)

namespace FileTree

/-- What the file under these names holds. -/
def file? (t : FileTree) (names : List FileName) : Option (List UInt8) := t.files.lookup names

/-- Is there a directory with these names? One is there if anything is under it. -/
def hasDirectory (t : FileTree) (names : List FileName) : Bool :=
  names.isPrefixOf t.home || t.files.any fun (way, _) => names.isPrefixOf way && way != names

/-- The names on a path, from its bytes. -/
def namesOf (path : Text) : List FileName := (Utf8.encode path).splitOn 0x2F

/-- Where a path starts: the names on the way there, the last one first. -/
def origin (t : FileTree) (path : Text) : List FileName :=
  if path.head? == some (.char '/') then [] else t.home.reverse

/-- Follows names from a directory, and tells the names on the way to the file or directory they
lead to. The last one is first, before and after. -/
def follow (t : FileTree) : List FileName → List FileName → Except FileFailure (List FileName)
  | way, [] => .ok way
  | way, name :: rest =>
    if name.isEmpty || name == [0x2E] then t.follow way rest
    else if name == [0x2E, 0x2E] then t.follow way.tail rest
    else if (t.file? (name :: way).reverse).isSome then
      if rest.isEmpty then .ok (name :: way) else .error .notDirectory
    else if t.hasDirectory (name :: way).reverse then t.follow (name :: way) rest
    else .error .notFound

/-- The names of the file that a path leads to. -/
def find (t : FileTree) (path : Text) : Except FileFailure (List FileName) :=
  if path.isEmpty then .error .notFound
  else do
    let way ← t.follow (t.origin path) (namesOf path)
    if (t.file? way.reverse).isSome then return way.reverse else throw .isDirectory

/-- What the file holds that a path leads to. -/
def read (t : FileTree) (path : Text) : Except Fault (List UInt8) :=
  if path.contains (.char '\x00') then .error .zeroInPath
  else match t.find path with
    | .ok names => .ok ((t.file? names).getD [])
    | .error e => .error (.fileUnavailable path e)

/-- The tree with what the file under these names holds, be it new or not. -/
def put (t : FileTree) (names : List FileName) (bytes : List UInt8) : FileTree :=
  { t with files := t.files.filter (fun (way, _) => way != names) ++ [(names, bytes)] }

/-- The names left when points, and names taken back by two points, are left out of a path. -/
def shortened : List FileName → List FileName → List FileName
  | done, [] => done.reverse
  | done, name :: rest =>
    if name.isEmpty || name == [0x2E] then shortened done rest
    else if name == [0x2E, 0x2E] then shortened done.tail rest
    else shortened (name :: done) rest

/-- The path that leads to these names from the root. Two slashes ahead, and no more, are kept. -/
def absolute (path : Text) (names : List FileName) : Text :=
  let ahead := path.takeWhile (· == .char '/')
  let slashes : Text := if ahead.length = 2 then "//" else "/"
  slashes ++ Utf8.decode (List.intercalate [0x2F] names)

/-- The tree after writing a file. The path is shortened first, so two points after a name that is
no directory do no harm. -/
def write (t : FileTree) (path : Text) (bytes : List UInt8) : Except Fault FileTree :=
  if path.contains (.char '\x00') then .error .zeroInPath
  else
    let names := shortened (t.origin path) (namesOf path)
    let failed (e : FileFailure) : Except Fault FileTree :=
      .error (.fileUnavailable (absolute path names) e)
    if t.hasDirectory names then failed .isDirectory
    else match t.follow [] names.dropLast with
      | .error e => failed e
      | .ok way =>
      if (t.file? way.reverse).isSome then failed .notDirectory else .ok (t.put names bytes)

/-- The files of one tree that another has not, by name. -/
def newFiles (before after : FileTree) : List (List FileName × List UInt8) :=
  after.files.filter fun (way, _) => (before.file? way).isNone

end FileTree
end UndoScript

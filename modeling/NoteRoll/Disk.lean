/-!
# Files

What a program may do with files: read one, and open one to append to it. `Files m` offers both in a
monad, so the same program runs on the real files and on a `Disk`, a tree of files that is a value,
which can be written to besides. A path is walked one component at a time, and only a directory can
be walked on from.
-/

namespace NoteRoll

/-- Why a file cannot be used. -/
inductive FileFault where
  | notFound
  | notDirectory
  | isDirectory
  | nameTooLong
  | zeroInPath
  | notText
  | other (reason : String)
  deriving DecidableEq, Repr

/-- What the user is told. -/
def FileFault.message : FileFault → String
  | .notFound => "No such file or directory (os error 2)"
  | .notDirectory => "Not a directory (os error 20)"
  | .isDirectory => "Is a directory (os error 21)"
  | .nameTooLong => "File name too long (os error 36)"
  | .zeroInPath => "file name contained an unexpected NUL byte"
  | .notText => "stream did not contain valid UTF-8"
  | .other reason => reason

/-- Whether the fault is that the path leads nowhere. -/
def FileFault.leadsNowhere : FileFault → Bool
  | .notFound | .notDirectory | .nameTooLong | .zeroInPath => true
  | .isDirectory | .notText | .other _ => false

/-- The use of files. -/
structure Files (m : Type → Type) where
  /-- The text of a file. -/
  read : (path : String) → m (Except FileFault String)
  /-- Opens a file to append to it, and makes it if it is missing. -/
  openLog : (path : String) → m (Except FileFault Unit)

/-- A tree of files and directories, each known by its components from the top. There are two tops:
the directory that a program starts in, and `/`. Above the former there are directories, `..` and so
on, of which nothing else is known. -/
structure Disk where
  files : List (List String × String)
  directories : List (List String)
  deriving DecidableEq, Repr

namespace Disk

/-- The components of a path. -/
def components (path : String) : List String :=
  match path.toList with
  | '/' :: _ => "/" :: path.splitOn "/"
  | _ => path.splitOn "/"

/-- Most bytes that a component of a path may have. -/
def maxNameBytes : Nat := 255

/-- Most bytes that a path may have. -/
def maxPathBytes : Nat := 4095

/-- Whether a place is the directory that a program starts in, or one above it. -/
def isAbove (place : List String) : Bool := place.all fun name => name == ".."

/-- Whether there is a directory: it is known to be one, or holds something. -/
def isDirectory (d : Disk) (place : List String) : Bool :=
  isAbove place || place == ["/"] || d.directories.any (fun p => place.isPrefixOf p) ||
    d.files.any fun f => place.isPrefixOf f.1 && place != f.1

/-- The text of the file at a place. -/
def content? (d : Disk) (place : List String) : Option String := d.files.lookup place

/-- One component further from a place. -/
def step (d : Disk) (place : List String) (name : String) : Except FileFault (List String) :=
  if !d.isDirectory place then
    .error (if (d.content? place).isSome then .notDirectory else .notFound)
  else if name = "" ∨ name = "." then .ok place
  else if name = ".." then
    .ok (if isAbove place then place ++ [".."]
      else if place = ["/"] then place
      else place.dropLast)
  else if maxNameBytes < name.utf8ByteSize then .error .nameTooLong
  else .ok (place ++ [name])

/-- The place that components lead to; the last one may be missing. -/
def walk (d : Disk) (names : List String) : Except FileFault (List String) := names.foldlM d.step []

/-- The components of a path, if it can be one. -/
def checkedComponents (path : String) : Except FileFault (List String) :=
  if path.contains '\x00' then .error .zeroInPath
  else if path = "" then .error .notFound
  else if maxPathBytes < path.utf8ByteSize then .error .nameTooLong
  else .ok (components path)

/-- The text of the file that a path leads to. -/
def read (d : Disk) (path : String) : Except FileFault String := do
  let place ← d.walk (← checkedComponents path)
  match d.content? place with
  | some text => .ok text
  | none => .error (if d.isDirectory place then .isDirectory else .notFound)

/-- The place of the file that a path leads to, in order to write to it. The file may be missing. A
path with a slash at its end names no file, whatever is there. -/
def placeToWrite (d : Disk) (path : String) : Except FileFault (List String) := do
  let names ← checkedComponents path
  let parent ← d.walk (names.reverse.dropWhile (· == "")).tail.reverse
  if d.isDirectory parent && names.getLast? == some "" then .error .isDirectory else
    let place ← d.step parent (names.getLast?.getD "")
    if (d.content? place).isNone && d.isDirectory place then .error .isDirectory else .ok place

/-- Opens the file that a path leads to in order to append to it. -/
def openLog (d : Disk) (path : String) : Except FileFault Unit × Disk :=
  match d.placeToWrite path with
  | .error fault => (.error fault, d)
  | .ok place =>
    (.ok (), if (d.content? place).isSome then d else { d with files := (place, "") :: d.files })

/-- Writes a text into the file that a path leads to, in place of what it held. -/
def write (d : Disk) (path text : String) : Except FileFault Unit × Disk :=
  match d.placeToWrite path with
  | .error fault => (.error fault, d)
  | .ok place => (.ok (), { d with files := (place, text) :: d.files })

/-- The use of a tree of files. -/
def use : Files (StateM Disk) where
  read path := fun d => (d.read path, d)
  openLog path := fun d => d.openLog path

end Disk

end NoteRoll

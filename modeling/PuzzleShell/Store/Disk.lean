import PuzzleShell.Fault

/-!
# The disk

The part of a disk that a store can notice: which directories there are, and the texts of files.
A path is followed name by name, from the working directory or from the root, and every name on it
but the last has to lead to a directory.  What an operation then does with the last name is its
own rule.
-/

namespace PuzzleShell

/--
A place on the disk: the names that lead there from the working directory, the last one first.  A
place above the working directory is a row of `..`, and `/` stands for the root.
-/
abbrev Place := List String

namespace Place

def root : Place := ["/"]

/-- The directory that a place is in; the root is in itself. -/
def parent : Place → Place
  | [] => [".."]
  | ".." :: rest => ".." :: ".." :: rest
  | ["/"] => ["/"]
  | _ :: rest => rest

def enter (directory : Place) (name : String) : Place :=
  if name = "." then directory
  else if name = ".." then directory.parent
  else name :: directory

end Place

structure Disk where
  files : List (Place × String)
  directories : List Place
  deriving DecidableEq, Repr

namespace Disk

def empty : Disk := ⟨[], []⟩

inductive Entry where
  | file (text : String)
  | directory
  deriving DecidableEq, Repr

def hasDirectory (disk : Disk) (place : Place) : Bool :=
  place.all (· = "..") || place = Place.root || disk.directories.contains place

def entry? (disk : Disk) (place : Place) : Option Entry :=
  if disk.hasDirectory place then some .directory
  else (disk.files.lookup place).map .file

/-- The disk with a file at a place; a file that was there is gone. -/
def put (disk : Disk) (place : Place) (text : String) : Disk :=
  { disk with files := (place, text) :: disk.files.filter (·.1 ≠ place) }

def drop (disk : Disk) (place : Place) : Disk :=
  { disk with files := disk.files.filter (·.1 ≠ place) }

def nameLimit : Nat := 255

/-- The number of bytes that a path may not reach. -/
def pathLimit : Nat := 4096

def pieces (path : String) : List String :=
  (path.toList.splitOn '/').map String.ofList

def names (path : String) : List String :=
  (pieces path).filter (· ≠ "")

def origin (path : String) : Place :=
  if path.toList.head? = some '/' then .root else []

def find (disk : Disk) (directory : Place) (name : String) :
    Except DiskFault (Place × Option Entry) :=
  if nameLimit < name.utf8ByteSize then .error .nameTooLong
  else .ok (directory.enter name, disk.entry? (directory.enter name))

/-- The directory in which the last of some names is to be looked up, and that name. -/
def follow (disk : Disk) (directory : Place) : List String → Except DiskFault (Place × String)
  | [] => .error .noSuchFile
  | [last] => .ok (directory, last)
  | name :: next :: rest => do
      match ← disk.find directory name with
      | (place, some .directory) => disk.follow place (next :: rest)
      | (_, some (.file _)) => .error .notDirectory
      | (_, none) => .error .noSuchFile

structure Route where
  directory : Place
  /-- The last name on the path, which need not be there. -/
  last : String
  /-- Whether a slash follows the last name, which only a directory allows. -/
  closed : Bool

def Route.isDots (route : Route) : Bool :=
  route.last = "." || route.last = ".."

/-- The way along a path, up to its last name.  The path of the root has no name. -/
def route (disk : Disk) (path : String) : Except DiskFault Route :=
  if path.toList.contains '\x00' then .error .nullInPath
  else if pathLimit ≤ path.utf8ByteSize then .error .nameTooLong
  else do
    let onPath := if names path = [] ∧ path ≠ "" then ["."] else names path
    let (directory, last) ← disk.follow (origin path) onPath
    return ⟨directory, last, path.toList.getLast? = some '/'⟩

def has (disk : Disk) (path : String) : Bool :=
  match disk.route path with
  | .error _ => false
  | .ok route =>
      match disk.find route.directory route.last with
      | .ok (_, some .directory) => true
      | .ok (_, some (.file _)) => !route.closed
      | _ => false

def read (disk : Disk) (path : String) : Except DiskFault String := do
  let route ← disk.route path
  match ← disk.find route.directory route.last with
  | (_, none) => .error .noSuchFile
  | (_, some .directory) => .error .isDirectory
  | (_, some (.file text)) => if route.closed then .error .notDirectory else .ok text

/-- Write the text of a file, which need not be there.  A closed path can only be a directory's. -/
def write (disk : Disk) (path text : String) : Except DiskFault Disk := do
  let route ← disk.route path
  if route.isDots || route.closed then .error .isDirectory
  else
    match ← disk.find route.directory route.last with
    | (_, some .directory) => .error .isDirectory
    | (place, _) => .ok (disk.put place text)

/-- Put a file into the place of another one, which need not be there. -/
def rename (disk : Disk) (source target : String) : Except DiskFault Disk := do
  let old ← disk.route source
  let new ← disk.route target
  if old.isDots || new.isDots then .error .busy
  else
    let (oldPlace, moved) ← disk.find old.directory old.last
    let (newPlace, replaced) ← disk.find new.directory new.last
    match moved with
    | none => .error .noSuchFile
    | some .directory => .error .isDirectory
    | some (.file text) =>
        if old.closed || new.closed then .error .notDirectory
        else if replaced = some .directory then .error .isDirectory
        else .ok ((disk.drop oldPlace).put newPlace text)

def withDirectories (disk : Disk) (directory : Place) : List String → Disk
  | [] => disk
  | name :: rest =>
      let place := directory.enter name
      withDirectories { disk with directories := place :: disk.directories } place rest

def withDirectory (disk : Disk) (path : String) : Disk :=
  disk.withDirectories (origin path) (names path)

def withWay (disk : Disk) (path : String) : Disk :=
  disk.withDirectories (origin path) (names path).dropLast

/--
How texts are written to a disk and files are put into place there.  Either may fail, for whatever
reason there is, and leave the disk changed nevertheless.
-/
structure Medium where
  write : Disk → String → String → Except DiskFault Unit × Disk
  rename : Disk → String → String → Except DiskFault Unit × Disk

namespace Medium

def attempt (disk : Disk) : Except DiskFault Disk → Except DiskFault Unit × Disk
  | .ok after => (.ok (), after)
  | .error fault => (.error fault, disk)

/-- The medium on which nothing fails but what cannot be done. -/
def faultless : Medium where
  write disk path text := attempt disk (disk.write path text)
  rename disk source target := attempt disk (disk.rename source target)

end Medium

example : empty.read "x/" = .error .noSuchFile := by rfl
example : empty.read "x/.." = .error .noSuchFile := by rfl
example : empty.read ".." = .error .isDirectory := by rfl
example : (empty.put ["x"] "a").read "./x" = .ok "a" := by rfl
example : (empty.put ["x"] "a").read "x/" = .error .notDirectory := by rfl

end Disk

end PuzzleShell

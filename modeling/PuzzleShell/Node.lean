import PuzzleShell.Access
import PuzzleShell.Content.Basic
import PuzzleShell.Roster

/-!
# Nodes

A node is a file or a directory.  A directory lists its entries in the order in which they were
first entered, each name once.
-/

namespace PuzzleShell

structure File where
  access : Access
  content : Content
  /-- The size that a listing shows when the content is not plain text. -/
  size : Option Nat
  deriving DecidableEq

namespace File

/-- The size that a listing shows.  Plain text is measured in bytes. -/
def displaySize (file : File) : Option Nat :=
  match file.content with
  | .inline text => some text.utf8ByteSize
  | _ => file.size

end File

inductive Node where
  | file (file : File)
  | directory (access : Access) (entries : List (String × Node))

namespace Node

def access : Node → Access
  | .file f => f.access
  | .directory access _ => access

def isDirectory : Node → Bool
  | .file _ => false
  | .directory _ _ => true

def withAccess (node : Node) (access : Access) : Node :=
  match node with
  | .file f => .file { f with access := access }
  | .directory _ entries => .directory access entries

def newDirectory (mode : Mode) (user : String) : Node :=
  .directory (.ownedBy mode user) []

def newFile (mode : Mode) (user : String) (content : Content) (size : Option Nat) : Node :=
  .file ⟨.ownedBy mode user, content, size⟩

def newText (mode : Mode) (user text : String) : Node :=
  newFile mode user (.inline text) none

mutual

def giveTo (user : String) : Node → Node
  | .file f => .file { f with access := { f.access with owner := user, group := user } }
  | .directory access entries =>
      .directory { access with owner := user, group := user } (giveEntriesTo user entries)

def giveEntriesTo (user : String) : List (String × Node) → List (String × Node)
  | [] => []
  | (name, node) :: rest => (name, giveTo user node) :: giveEntriesTo user rest

end

end Node

structure Directory where
  access : Access
  entries : Roster Node

namespace Directory

def toNode (directory : Directory) : Node :=
  .directory directory.access directory.entries

def get? (directory : Directory) (name : String) : Option Node :=
  Roster.get? name directory.entries

def has (directory : Directory) (name : String) : Bool :=
  Roster.has name directory.entries

/-- Enter a node under a name; the entry that had the name gives up its place to it. -/
def put (directory : Directory) (name : String) (node : Node) : Directory :=
  { directory with entries := Roster.put name node directory.entries }

def drop (directory : Directory) (name : String) : Directory :=
  { directory with entries := Roster.drop name directory.entries }

/--
Whether a user may take the entry of a name out.  That takes write permission on the directory,
and in a sticky one also that the user owns the directory or the entry.  An entry that is not
there may be taken out.
-/
def mayDrop (directory : Directory) (name user : String) : Bool :=
  user = rootUser ||
    directory.access.permits user .write &&
      (!directory.access.mode.isSticky ||
        match directory.get? name with
        | none => true
        | some node => directory.access.owner = user || node.access.owner = user)

end Directory

end PuzzleShell

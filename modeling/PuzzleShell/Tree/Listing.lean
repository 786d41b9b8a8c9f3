import PuzzleShell.Tree.Basic

/-!
# Looking at a tree

What a user may enter, list and read.  None of this changes the tree.
-/

namespace PuzzleShell

structure Row where
  name : String
  isDirectory : Bool
  access : Access
  size : Option Nat

def directorySize : Nat := 4096

def Row.ofNode (name : String) : Node → Row
  | .file file => ⟨name, false, file.access, file.displaySize⟩
  | .directory access _ => ⟨name, true, access, some directorySize⟩

namespace Tree

def enter (tree : Tree) (path user : String) : Except Fault Unit := do
  let directory ← tree.directory path
  directory.access.require user .execute path

/-- The rows of a directory, or the one row of a file. -/
def list (tree : Tree) (path user : String) : Except Fault (List Row) := do
  match ← tree.lookup path with
  | .directory access entries =>
      access.require user .read path
      return entries.map fun entry => .ofNode entry.1 entry.2
  | .file file =>
      let name := match Path.split? path with
        | some (_, last) => last
        | none => path
      return [.ofNode name (.file file)]

/-- What a file holds, references not followed. -/
def content (tree : Tree) (path user : String) : Except Fault Content := do
  match ← tree.lookup path with
  | .directory _ _ => .error (.isADirectory path)
  | .file file =>
      file.access.require user .read path
      return file.content

/-- The text of a file.  Nothing is asked of the oracle unless the user may read the file. -/
def read (tree : Tree) (path user : String) (oracle : ContentOracle) : Inquiry String := do
  let content ← .ofExcept (tree.content path user)
  content.render oracle

end Tree

end PuzzleShell

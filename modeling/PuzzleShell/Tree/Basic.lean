import PuzzleShell.Node
import PuzzleShell.Path

/-!
# The tree

A tree is its root node.  Paths are followed name by name from the root; a path that leads through
a file or to nothing is a fault.
-/

namespace PuzzleShell

namespace Node

/-- The node at the end of a sequence of names; a fault names the path that was asked for. -/
def follow (path : String) : List String → Node → Except Fault Node
  | [], node => .ok node
  | _ :: _, .file _ => .error (.notADirectory path)
  | name :: rest, .directory _ entries =>
      match Roster.get? name entries with
      | some node => follow path rest node
      | none => .error (.notFound path)

def changeAt (change : Node → Node) : List String → Node → Node
  | [], node => change node
  | _ :: _, .file f => .file f
  | name :: rest, .directory access entries =>
      .directory access (Roster.update name (changeAt change rest) entries)

end Node

structure Tree where
  root : Node

namespace Tree

def empty (access : Access) : Tree := ⟨.directory access []⟩

def lookup (tree : Tree) (path : String) : Except Fault Node :=
  tree.root.follow path (Path.segments path)

def directory (tree : Tree) (path : String) : Except Fault Directory := do
  match ← tree.lookup path with
  | .directory access entries => .ok ⟨access, entries⟩
  | .file _ => .error (.notADirectory path)

def has (tree : Tree) (path : String) : Bool :=
  tree.lookup path matches .ok _

def hasDirectory (tree : Tree) (path : String) : Bool :=
  tree.lookup path matches .ok (.directory _ _)

def changeAt (tree : Tree) (path : String) (change : Node → Node) : Tree :=
  ⟨tree.root.changeAt change (Path.segments path)⟩

def changeDirectory (tree : Tree) (path : String) (change : Directory → Directory) : Tree :=
  tree.changeAt path fun
    | .directory access entries => (change ⟨access, entries⟩).toNode
    | .file file => .file file

/-- Enter a node into a directory without asking anyone, as a world is seeded. -/
def insert (tree : Tree) (parent name : String) (node : Node) : Except Fault Tree := do
  let _ ← tree.directory parent
  return tree.changeDirectory parent (·.put name node)

end Tree

end PuzzleShell

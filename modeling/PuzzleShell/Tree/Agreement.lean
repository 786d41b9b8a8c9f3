import PuzzleShell.Tree.Basic

/-!
# Trees that agree

Two trees agree if they have the same nodes at the same paths, whatever the order in which the
entries of a directory were entered.
-/

namespace PuzzleShell

namespace Node

mutual

/-- Whether two nodes are the same up to the order of entries. -/
def agrees : Node → Node → Bool
  | .file f, .file other => f = other
  | .directory access entries, .directory other others =>
      access = other && entries.length = others.length && entriesAgree entries others
  | _, _ => false

def entriesAgree : List (String × Node) → List (String × Node) → Bool
  | [], _ => true
  | (name, node) :: rest, others =>
      (match Roster.get? name others with
       | some other => agrees node other
       | none => false) && entriesAgree rest others

end

end Node

def Tree.agrees (tree other : Tree) : Bool :=
  tree.root.agrees other.root

end PuzzleShell

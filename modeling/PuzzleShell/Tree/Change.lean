import PuzzleShell.Tree.Basic

/-!
# Changing a tree

Each operation checks everything first: that the places exist, that they are of the right kind and
that the user may do it.  Only then does it edit the tree.  Its answer holds the tree as it is
afterwards, also when it fails.
-/

namespace PuzzleShell

/-- The outcome of a change and the tree as it is afterwards. -/
abbrev Tree.Change (α : Type) := Except Fault α × Tree

namespace Tree

variable {α : Type}

/-- Carry a plan out; a plan that fails leaves the tree alone. -/
def carryOut (tree : Tree) (plan : Except Fault (α × Tree)) : Change α :=
  match plan with
  | .ok (value, changed) => (.ok value, changed)
  | .error fault => (.error fault, tree)

/-- The directory and the name of a path that is not the root; the root can never be changed. -/
def place (path : String) : Except Fault (String × String) :=
  match Path.split? path with
  | some parts => .ok parts
  | none => .error (.permissionDenied "/")

def mkdir (tree : Tree) (path user : String) : Change Unit :=
  tree.carryOut do
    let some (parent, name) := Path.split? path | .error (.alreadyExists path)
    let directory ← tree.directory parent
    directory.access.require user .write path
    if directory.has name then .error (.alreadyExists path)
    else return ((), tree.changeDirectory parent (·.put name (.newDirectory .newDirectory user)))

/-- Create an empty file that belongs to the user, unless there is something already. -/
def touch (tree : Tree) (path user : String) : Change Unit :=
  tree.carryOut do
    if tree.has path then return ((), tree)
    else
      let (parent, name) ← place path
      let directory ← tree.directory parent
      directory.access.require user .write path
      return ((), tree.changeDirectory parent (·.put name (.newText .newFile user "")))

/--
Create or overwrite a file.  A new file takes write permission on its directory and belongs to the
user; an existing one takes write permission on itself and keeps its permissions and owners.
-/
def write (tree : Tree) (path : String) (content : Content) (user : String) : Change Unit :=
  tree.carryOut do
    let (parent, name) ← place path
    let directory ← tree.directory parent
    match directory.get? name with
    | some (.directory _ _) => .error (.isADirectory path)
    | some (.file file) =>
        file.access.require user .write path
        return ((), tree.changeDirectory parent (·.put name (.file ⟨file.access, content, none⟩)))
    | none =>
        directory.access.require user .write path
        return ((), tree.changeDirectory parent (·.put name (.newFile .newFile user content none)))

def remove (tree : Tree) (path user : String) (recursive : Bool) : Change Unit :=
  tree.carryOut do
    let (parent, name) ← place path
    let directory ← tree.directory parent
    let some node := directory.get? name | .error (.notFound path)
    if node.isDirectory && !recursive then .error (.isADirectory path)
    else if directory.mayDrop name user then
      return ((), tree.changeDirectory parent (·.drop name))
    else .error (.permissionDenied path)

/-- Where something moved or copied to a path ends up: inside it, if it is a directory. -/
def landing (tree : Tree) (source target : String) : Except Fault String := do
  let (_, name) ← place source
  return if tree.hasDirectory target then Path.join target name else target

/--
The check that a node may land at a path.  It takes write permission on the directory there; only
a file may be replaced, only by a file, and only if `mayReplace` allows it.
-/
def checkLanding (tree : Tree) (node : Node) (target user : String)
    (mayReplace : Directory → String → Bool) : Except Fault Unit := do
  let (parent, name) ← place target
  let directory ← tree.directory parent
  directory.access.require user .write target
  match directory.get? name with
  | none => return ()
  | some (.directory _ _) => .error (.alreadyExists target)
  | some (.file _) =>
      if node.isDirectory then .error (.notADirectory target)
      else if mayReplace directory name then return ()
      else .error (.permissionDenied target)

structure Move where
  node : Node
  sourceParent : String
  sourceName : String
  target : String
  targetParent : String
  targetName : String

/-- The checks of a move.  There is nothing to do if source and target are the same place. -/
def planMove (tree : Tree) (source target user : String) : Except Fault (String × Option Move) := do
  let (sourceParent, sourceName) ← place source
  let node ← tree.lookup source
  let final ← tree.landing source target
  if final = source then return (final, none)
  else if Path.isBelow final source then
    .error (.complaint (.moveIntoItself source final))
  else
    let directory ← tree.directory sourceParent
    if directory.mayDrop sourceName user then
      tree.checkLanding node final user fun parent name => parent.mayDrop name user
      let (targetParent, targetName) ← place final
      let some moved := directory.get? sourceName | .error (.notFound source)
      return (final, some ⟨moved, sourceParent, sourceName, final, targetParent, targetName⟩)
    else .error (.permissionDenied source)

/-- Take the node out and enter it at its new place, or put it back if that place went with it. -/
def carryOutMove (tree : Tree) (move : Move) : Change String :=
  let without := tree.changeDirectory move.sourceParent (·.drop move.sourceName)
  match without.directory move.targetParent with
  | .ok _ =>
      (.ok move.target, without.changeDirectory move.targetParent (·.put move.targetName move.node))
  | .error fault =>
      (.error fault, without.changeDirectory move.sourceParent (·.put move.sourceName move.node))

def rename (tree : Tree) (source target user : String) : Change String :=
  match tree.planMove source target user with
  | .error fault => (.error fault, tree)
  | .ok (final, none) => (.ok final, tree)
  | .ok (_, some move) => tree.carryOutMove move

/--
Copy a node with everything below it.  A directory needs `recursive`.  The copy belongs to the
user.  The answer is the path where it ended up.
-/
def copy (tree : Tree) (source target user : String) (recursive : Bool) : Change String :=
  tree.carryOut do
    let node ← tree.lookup source
    node.access.require user .read source
    if node.isDirectory && !recursive then .error (.complaint (.omittedDirectory source))
    else
      let final ← tree.landing source target
      if final = source || node.isDirectory && Path.isBelow final source then
        .error (.complaint (.copyIntoItself source final))
      else
        tree.checkLanding node final user fun parent name =>
          (parent.get? name).any fun old => old.access.permits user .write
        let (parent, name) ← place final
        let _ ← tree.directory parent
        return (final, tree.changeDirectory parent (·.put name (node.giveTo user)))

/-- Change the permissions of a node, which only its owner and the privileged user may. -/
def chmod (tree : Tree) (path spec user : String) : Change Mode :=
  tree.carryOut do
    let node ← tree.lookup path
    let some mode := node.access.mode.change? spec | .error (.complaint (.invalidMode spec))
    if user ≠ rootUser ∧ node.access.owner ≠ user then .error (.complaint (.notOwner path))
    else
      return (mode, tree.changeAt path fun old => old.withAccess { old.access with mode := mode })

end Tree

end PuzzleShell

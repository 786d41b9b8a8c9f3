import PuzzleShell.Mode

/-!
# Who may do what

Every node carries its mode and the names of its owner and group.  The privileged user passes
every check; anyone else holds what the triad grants that applies to them.
-/

namespace PuzzleShell

def rootUser : String := "root"

structure Access where
  mode : Mode
  owner : String
  group : String
  deriving DecidableEq, Repr

namespace Access

/-- What belongs to a user and to the group that is named like them. -/
def ownedBy (mode : Mode) (user : String) : Access := ⟨mode, user, user⟩

/-- The party that a user belongs to.  A group has one member, the user of that name. -/
def party (access : Access) (user : String) : Party :=
  if access.owner = user then .owner
  else if access.group = user then .group
  else .others

def permits (access : Access) (user : String) (capability : Capability) : Bool :=
  user = rootUser || access.mode.allows (access.party user) capability

/-- The check of a capability; a refusal names the path that it is about. -/
def require (access : Access) (user : String) (capability : Capability) (path : String) :
    Except Fault Unit :=
  if access.permits user capability then .ok () else .error (.permissionDenied path)

end Access

end PuzzleShell

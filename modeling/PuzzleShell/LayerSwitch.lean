import PuzzleShell.Config.Basic
import PuzzleShell.Session

/-!
# Switching layers

On entering the deep layer the player becomes someone else somewhere else.  Who and where they were
is parked until they leave it.
-/

namespace PuzzleShell

structure Identity where
  user : String
  cwd : String
  deriving DecidableEq, Repr

namespace Session

/-- Park the identity and become the deep user.  In the deep layer already, nothing happens. -/
def enterDeep (shell : ShellSettings) (session : Session) (parked : Option Identity) :
    Session × Option Identity :=
  if session.isDeep then (session, parked)
  else
    ({ session with user := shell.deepUser, cwd := shell.deepPath, layer := .deep },
      some ⟨session.user, session.cwd⟩)

/-- Become the parked identity again.  If there is none, nothing happens. -/
def leaveDeep (session : Session) (parked : Option Identity) : Session × Option Identity :=
  match parked with
  | none => (session, none)
  | some identity =>
      ({ session with user := identity.user, cwd := identity.cwd, layer := .standard }, none)

end Session

end PuzzleShell

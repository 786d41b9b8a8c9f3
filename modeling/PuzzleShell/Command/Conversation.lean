import PuzzleShell.Command.Network

/-!
# Talking to a tool

A line that goes to a tool takes one of its turns.  What it is checked against is read at that
moment, so a tool never holds a password.
-/

namespace PuzzleShell.Tool

def leakId : String := "echo-service-leak"

def lockoutNotice : String :=
  "Too many authentication failures. This incident has been logged."

def formatDirectives : List String := ["%x", "%p", "%s"]

def refuse (backend : Backend) (message : String) : Action Output := do
  let turn ← get
  let (full, session) := turn.session.recordFailure backend.config.maxFailures
  set { turn with session := session }
  return .text (if full then message ++ "\n" ++ lockoutNotice else message)

def logIn (backend : Backend) (user password : String) : Action Output := do
  match (backend.config.account? user).filter (·.password = password) with
  | none => refuse backend "Login incorrect"
  | some account =>
      modify fun turn =>
        let cwd := if turn.tree.hasDirectory account.home then account.home else turn.session.cwd
        { turn with
          session := { turn.session with
            user := account.user
            escalationFailures := 0
            cwd := cwd } }
      return .text ("Welcome, " ++ user ++ ".")

/-- Nobody may run commands as the privileged user, least of all with the right password. -/
def checkSudo (backend : Backend) (password : String) : Action Output := do
  let user ← Action.user
  if (backend.config.account? user).any (·.password = password) then
    return .text (user ++ " is not in the sudoers file. This incident will be reported.")
  else refuse backend "Sorry, try again."

/-- The reply of the echo service, which gives its memory away to a format directive. -/
def reply (backend : Backend) (line : String) : Action Output := do
  let text ←
    if formatDirectives.any fun directive => Command.occursIn directive.toList line.toList then
      Action.inquire (.ask backend.content leakId)
    else pure line
  return .text (text ++ "\nConnection closed by foreign host.")

/-- Let a tool, which is out of its slot by now, take one line. -/
def advance (backend : Backend) (line : String) : Tool → Action Output
  | .login none =>
      let user := Text.trim line
      if user = "" then refuse backend "Login incorrect"
      else do
        Action.install (.login (some user))
        return .silent
  | .login (some user) => logIn backend user line
  | .sudoPassword _ => checkSudo backend line
  | .sshPassword _ => refuse backend "Permission denied, please try again."
  | .payload => reply backend line

end PuzzleShell.Tool

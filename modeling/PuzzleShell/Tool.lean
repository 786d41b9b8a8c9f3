/-!
# Interactive tools

A tool asks for further lines of input.  While one is active the next line goes to it as it was
typed and is no command.
-/

namespace PuzzleShell

inductive Tool where
  /-- Waits for a user name, if none is given yet, and then for that user's password. -/
  | login (user : Option String)
  /-- Waits for the password of the acting user. -/
  | sudoPassword (command : String)
  /-- Waits for a password that is never accepted. -/
  | sshPassword (target : String)
  /-- Waits for one line to send to the echo service. -/
  | payload
  deriving DecidableEq, Repr

namespace Tool

def turnsRemaining : Tool → Nat
  | .login none => 2
  | _ => 1

def prompt (user : String) : Tool → String
  | .login none => "login: "
  | .login (some _) => "Password: "
  | .sudoPassword _ => "[sudo] password for " ++ user ++ ": "
  | .sshPassword target => target ++ "'s password: "
  | .payload => "> "

def masksInput : Tool → Bool
  | .login none | .payload => false
  | _ => true

/-- The command that started the tool; its failures are reported under this name. -/
def commandName : Tool → String
  | .login _ => "login"
  | .sudoPassword _ => "sudo"
  | .sshPassword _ => "ssh"
  | .payload => "nc"

end Tool

end PuzzleShell

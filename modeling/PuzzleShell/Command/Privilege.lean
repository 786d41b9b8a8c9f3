import PuzzleShell.Command.Basic

/-!
# Becoming someone else

Both commands only start a tool.  What is typed into it is checked on the next line.
-/

namespace PuzzleShell.Command

def login : Command where
  name := "login"
  aliases := []
  description := "Log in as another user"
  usage := "login [user]"
  category := "security"
  run _ words := do
    Action.install (.login words.head?)
    return .silent

def runAsRoot : Command where
  name := "sudo"
  aliases := []
  description := "Run a command as root"
  usage := "sudo <command...>"
  category := "security"
  run _ words :=
    if words.isEmpty then Action.misuse "sudo <command...>"
    else do
      Action.install (.sudoPassword (" ".intercalate words))
      return .silent

end PuzzleShell.Command

import PuzzleShell.Command.Challenge
import PuzzleShell.Command.Codec
import PuzzleShell.Command.Files
import PuzzleShell.Command.Navigation
import PuzzleShell.Command.Privilege
import PuzzleShell.Command.Registry

/-!
# The commands of each layer

Both layers have the commands for moving around, changing files and handing in flags.  Only the
standard layer has those for packing, for becoming someone else and for connections.
-/

namespace PuzzleShell.Command

def navigation : List Command := [ls, cd, pwd, cat, echo, clear, whoami, id, exit]

def files : List Command := [mkdir, touch, rm, mv, cp, chmod]

def challenge : List Command := [submit]

def codec : List Command := [base64, unzip]

def privilege : List Command := [login, runAsRoot]

def network : List Command := [nc, ssh]

end PuzzleShell.Command

namespace PuzzleShell.Registry

def standard : Registry :=
  ofList (Command.navigation ++ Command.files ++ Command.challenge ++ Command.codec ++
    Command.privilege ++ Command.network)

def deep : Registry :=
  ofList (Command.navigation ++ Command.files ++ Command.challenge)

def ofLayer : Layer → Registry
  | .standard => standard
  | .deep => deep

end PuzzleShell.Registry

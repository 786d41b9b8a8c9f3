import PuzzleShell.Config.Decode
import PuzzleShell.Toml.Reader

/-!
# Configuration from a text

A configuration file is written in TOML.  What does not describe a configuration is a fault, and so
is a configuration that the game cannot run with.
-/

namespace PuzzleShell.Config

def ofToml (text : String) : Except Fault Config := do
  let some config := Toml.read? text >>= ofDocument? .ignored | .error .malformedToml
  config.validate
  return config

end PuzzleShell.Config

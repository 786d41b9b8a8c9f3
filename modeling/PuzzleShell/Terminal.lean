import PuzzleShell.Config.Load
import PuzzleShell.Screen
import PuzzleShell.Store.File

/-!
# The terminal

A game with a store in a file and a screen.  Besides lines for the game the player can type
`:reset` and `:quit`.
-/

namespace PuzzleShell

structure Terminal where
  backend : Backend
  game : Game FileStore
  screen : Screen

namespace Terminal

def defaultStorePath : String := "deepshell-state.json"

def tableOracle (texts : Roster String) : ContentOracle := fun id =>
  match Roster.get? id texts with
  | some text => .ok text
  | none => .error (.oracle (.unknownContent id))

def backendOf (config : Config) : Backend where
  config := config
  content := tableOracle config.content
  flags candidate := .ok (.ofTable config.flags candidate)

/-- The configuration in a file, or the default one if no file is named. -/
def loadConfig (disk : Disk) : Option String → Except Fault Config
  | none => .ok .default
  | some path =>
      match disk.read path with
      | .ok text => Config.ofToml text
      | .error fault => .error (.disk fault)

def draw (terminal : Terminal) : String × Terminal :=
  let (shown, screen) := terminal.screen.draw terminal.backend.config terminal.game
  (shown, { terminal with screen := screen })

def start (disk : Disk) (configPath : Option String) (storePath : String) :
    Except Fault (String × Terminal) := do
  let config ← loadConfig disk configPath
  let store ← FileStore.openAt disk storePath
  let game ← Game.start config store
  return draw ⟨backendOf config, game, .start⟩

def refusal : String := "(terminal not accepting input)"

/-- Take one line.  The answer is nothing if the player wants to leave. -/
def take? (terminal : Terminal) (line : String) : Option (String × Terminal) :=
  match Text.trim line with
  | ":quit" => none
  | ":reset" =>
      some ("", { terminal with game := terminal.game.reset terminal.backend.config })
  | _ =>
      let submission := terminal.game.submit terminal.backend line
      if submission.accepted then some ("", { terminal with game := submission.game })
      else
        let (shown, screen) := terminal.screen.notice refusal
        some (shown, { terminal with game := submission.game, screen := screen })

def frame (terminal : Terminal) (elapsed : Nat) : String × Terminal :=
  draw { terminal with game := terminal.game.tick terminal.backend.config elapsed }

/-- Take lines one after another, with no time in between, up to the end or the wish to leave. -/
def run (terminal : Terminal) : List String → String × Terminal
  | [] => ("", terminal)
  | line :: rest =>
      match terminal.take? line with
      | none => ("", terminal)
      | some (taken, afterLine) =>
          let (drawn, afterFrame) := afterLine.frame 0
          let (others, last) := run afterFrame rest
          (taken ++ drawn ++ others, last)

def close (terminal : Terminal) : Terminal :=
  { terminal with game := terminal.game.shutdown }

end Terminal

end PuzzleShell

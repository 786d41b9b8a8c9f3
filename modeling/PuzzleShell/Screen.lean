import PuzzleShell.Game.Clock
import PuzzleShell.Game.Input

/-!
# The screen

The screen shows the lines of the transcript as they come, and the prompt whenever the game waits
for input and something was shown since the last one.  What the player typed is on the screen
already.
-/

namespace PuzzleShell

structure Screen where
  /-- The wipes of the transcript that the screen has followed. -/
  generation : Nat
  /-- The position up to which lines were shown. -/
  shown : Nat
  promptPending : Bool
  deriving DecidableEq, Repr

namespace Screen

def start : Screen := ⟨0, 0, true⟩

def wipe : String := "\x1b[2J\x1b[H"

/-- A line as it is shown; messages of the game stand out. -/
def styled (line : Line) : String :=
  match line.kind with
  | .system => "\x1b[1;31m" ++ line.text ++ "\x1b[0m"
  | .input | .output => line.text

/-- The prompt with the seconds that are left and the mark of a failing terminal. -/
def promptLine {σ : Type} (config : Config) (game : Game σ) : String :=
  (if game.countdown.isRunning then "[" ++ toString game.countdown.timeLeft ++ "s] " else "") ++
    (if game.collapse.phase = .systemFailure then "!! " else "") ++ game.prompt config

def shownLines (lines : List Line) : String :=
  "".intercalate ((lines.filter fun line => line.kind ≠ .input).map fun line => styled line ++ "\n")

def drawLines (screen : Screen) (transcript : Transcript) : String × Screen :=
  let (wiped, current) :=
    if transcript.generation = screen.generation then ("", screen)
    else (wipe, ⟨transcript.generation, 0, true⟩)
  let fresh := transcript.since current.shown
  if fresh.isEmpty then (wiped, current)
  else
    (wiped ++ shownLines fresh, { current with shown := transcript.finish, promptPending := true })

/-- Show what is new, and the prompt if it is time for it. -/
def draw {σ : Type} (config : Config) (screen : Screen) (game : Game σ) : String × Screen :=
  let (lines, current) := screen.drawLines game.transcript
  if current.promptPending && game.inputEnabled then
    (lines ++ promptLine config game, { current with promptPending := false })
  else (lines, current)

/-- Show a line that does not belong to the transcript. -/
def notice (screen : Screen) (text : String) : String × Screen :=
  (text ++ "\n", { screen with promptPending := true })

end Screen

end PuzzleShell

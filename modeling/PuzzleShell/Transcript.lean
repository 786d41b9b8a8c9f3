import PuzzleShell.Text.Lines

/-!
# The transcript

What the player has seen, line by line.  Only the newest thousand lines are kept.  A line keeps its
position, which counts from the last wipe, so a reader can ask for the lines since a position.
-/

namespace PuzzleShell

inductive LineKind where
  /-- What the player typed, with the prompt. -/
  | input
  /-- The answer of a command. -/
  | output
  /-- A message of the game itself. -/
  | system
  deriving DecidableEq, Repr

structure Line where
  kind : LineKind
  text : String
  deriving DecidableEq, Repr

/-- The lines that are kept, the count of wipes and the count of lines dropped since the last. -/
structure Transcript where
  lines : List Line
  generation : Nat
  dropped : Nat
  deriving DecidableEq, Repr

namespace Transcript

def capacity : Nat := 1000

def start : Transcript := ⟨[], 0, 0⟩

/-- Add lines and drop the oldest ones beyond the capacity. -/
def append (transcript : Transcript) (added : List Line) : Transcript :=
  let lines := transcript.lines ++ added
  let excess := lines.length - capacity
  { transcript with lines := lines.drop excess, dropped := transcript.dropped + excess }

/-- Add what the player typed, as one line whatever it holds. -/
def pushInput (transcript : Transcript) (prompt text : String) : Transcript :=
  transcript.append [⟨.input, prompt ++ text⟩]

def pushOutput (transcript : Transcript) (text : String) : Transcript :=
  transcript.append ((Text.lines text).map (⟨.output, ·⟩))

def pushSystem (transcript : Transcript) (text : String) : Transcript :=
  transcript.append ((Text.lines text).map (⟨.system, ·⟩))

def clear (transcript : Transcript) : Transcript :=
  ⟨[], transcript.generation + 1, 0⟩

def finish (transcript : Transcript) : Nat :=
  transcript.dropped + transcript.lines.length

def since (transcript : Transcript) (mark : Nat) : List Line :=
  transcript.lines.drop (mark - transcript.dropped)

def text (transcript : Transcript) : String :=
  Text.unlines (transcript.lines.map (·.text))

end Transcript

end PuzzleShell

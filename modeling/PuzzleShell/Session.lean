import PuzzleShell.Access
import PuzzleShell.Path
import PuzzleShell.Solved

/-!
# The session

Who the player is, where they are and what they have achieved, with the two counters of failures
in a row.
-/

namespace PuzzleShell

/-- The two layers of the game.  Each has its own tree and its own commands. -/
inductive Layer where
  | standard
  | deep
  deriving DecidableEq, Repr

structure Session where
  /-- Whose permissions apply. -/
  user : String
  /-- The working directory. -/
  cwd : String
  layer : Layer
  solved : Solved
  /-- Unknown commands in a row. -/
  unknownStreak : Nat
  /-- Failed attempts at becoming someone else in a row. -/
  escalationFailures : Nat
  deriving DecidableEq, Repr

namespace Session

def start (user cwd : String) : Session :=
  ⟨user, cwd, .standard, [], 0, 0⟩

def isDeep (session : Session) : Bool :=
  session.layer = .deep

/-- The next count.  Counts are kept in 32 bits, so the greatest one is followed by zero. -/
def nextCount (count : Nat) : Nat :=
  (count + 1) % (1 <<< 32)

/-- A count goes up by one as long as the next one fits into 32 bits. -/
theorem nextCount_of_lt {count : Nat} (fits : count + 1 < 1 <<< 32) : nextCount count = count + 1 :=
  Nat.mod_eq_of_lt fits

/--
Count a failed attempt.  The answer says whether it filled up the count of `most` attempts; then
the count starts again from zero.
-/
def recordFailure (session : Session) (most : Nat) : Bool × Session :=
  let failures := nextCount session.escalationFailures
  if most ≤ failures then (true, { session with escalationFailures := 0 })
  else (false, { session with escalationFailures := failures })

def prompt (session : Session) (host : String) : String :=
  session.user ++ "@" ++ host ++ ":" ++ Path.display session.cwd ++
    (if session.user = rootUser then "# " else "$ ")

end Session

end PuzzleShell

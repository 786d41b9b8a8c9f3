import PuzzleShell.Countdown
import PuzzleShell.Json.Printer
import PuzzleShell.Json.Reader
import PuzzleShell.Solved
import PuzzleShell.Store.Basic

/-!
# Stored progress

The solved challenges are stored as a list of numbers and the countdown as a record.  What cannot
be read is as good as missing.
-/

namespace PuzzleShell.Progress

def solvedOf? (document : Document) : Option Solved :=
  (document.asList? (·.asNat? (1 <<< 32))).map Solved.ofList

def documentOfSolved (solved : Solved) : Document :=
  .list (solved.map fun (id : Nat) => .integer id)

def countdownFields : List String := ["active", "time_left", "exploded"]

def repeats (fields : List (String × Document)) : Bool :=
  countdownFields.any fun name => 1 < (fields.filter (·.1 = name)).length

/-- The countdown that a document describes; missing fields are those of an inactive one. -/
def countdownOf? (document : Document) : Option Countdown := do
  let fields ← document.asFields? countdownFields .refused
  if repeats fields then none
  else
    some {
      active := ← Document.optionalField? fields "active" false (·.asBoolean?)
      timeLeft := ← Document.optionalField? fields "time_left" 0 (·.asNat? (1 <<< 32))
      exploded := ← Document.optionalField? fields "exploded" false (·.asBoolean?) }

def documentOfCountdown (countdown : Countdown) : Document :=
  .record
    [("active", .boolean countdown.active), ("time_left", .integer countdown.timeLeft),
     ("exploded", .boolean countdown.exploded)]

variable {σ : Type} [Store σ]

def load? (store : σ) (key : String) : Option Document :=
  match Store.get store key with
  | .ok (some text) => Json.read? text
  | _ => none

def loadSolved? (store : σ) (key : String) : Option Solved :=
  load? store key >>= solvedOf?

def loadCountdown? (store : σ) (key : String) : Option Countdown :=
  load? store key >>= countdownOf?

def saveSolved (store : σ) (key : String) (solved : Solved) : Except Fault Unit × σ :=
  Store.set store key (Json.compact (documentOfSolved solved))

def saveCountdown (store : σ) (key : String) (countdown : Countdown) : Except Fault Unit × σ :=
  Store.set store key (Json.compact (documentOfCountdown countdown))

end PuzzleShell.Progress

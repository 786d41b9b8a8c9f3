import PuzzleShell.Config.Basic

/-!
# The countdown

A wrong flag arms the countdown; further ones and every second shorten it.  Whatever takes the last
second explodes it, and then nothing but a reset changes it.
-/

namespace PuzzleShell

structure Countdown where
  active : Bool
  timeLeft : Nat
  exploded : Bool
  deriving DecidableEq, Repr

namespace Countdown

def inactive : Countdown := ⟨false, 0, false⟩

def spent : Countdown := ⟨true, 0, true⟩

def isRunning (countdown : Countdown) : Bool :=
  countdown.active && !countdown.exploded

/-- The countdown that a combination stands for which no transition leads to. -/
def normalized (countdown : Countdown) : Countdown :=
  if countdown.exploded || (countdown.active && countdown.timeLeft = 0) then spent
  else if countdown.active then countdown
  else inactive

inductive Change where
  | armed
  | penalized
  | ticked
  | disarmed
  | exploded
  | unchanged
  deriving DecidableEq, Repr

/-- Take seconds off a running countdown; `kind` is what that is called if some are left. -/
def shorten (countdown : Countdown) (seconds : Nat) (kind : Change) : Change × Countdown :=
  if countdown.timeLeft ≤ seconds then (.exploded, spent)
  else (kind, { countdown with timeLeft := countdown.timeLeft - seconds })

def wrongFlag (settings : CountdownSettings) (countdown : Countdown) : Change × Countdown :=
  if countdown.exploded then (.unchanged, countdown)
  else if countdown.active then countdown.shorten settings.penaltySecs .penalized
  else if settings.initialSecs = 0 then (.exploded, spent)
  else (.armed, { countdown with active := true, timeLeft := settings.initialSecs })

def rightFlag (countdown : Countdown) : Change × Countdown :=
  if countdown.isRunning then (.disarmed, inactive) else (.unchanged, countdown)

def tick (countdown : Countdown) : Change × Countdown :=
  if countdown.isRunning then countdown.shorten 1 .ticked else (.unchanged, countdown)

end Countdown

end PuzzleShell

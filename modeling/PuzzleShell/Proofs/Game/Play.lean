import PuzzleShell.Game.Clock
import PuzzleShell.Game.Input

/-!
# Playing a game

What the outside can do to a game, and what a whole sequence of it leaves.
-/

namespace PuzzleShell

inductive Call where
  /-- A line is typed. -/
  | submit (line : String)
  /-- Time passes. -/
  | tick (elapsed : Nat)
  /-- The game is started over. -/
  | reset
  deriving DecidableEq, Repr

/-- What the outside does to a game, its end included. -/
inductive Handling where
  | call (call : Call)
  | shutdown
  deriving DecidableEq, Repr

namespace Game

variable {σ : Type} [Store σ]

def call (backend : Backend) (game : Game σ) : Call → Game σ
  | .submit line => (game.submit backend line).game
  | .tick elapsed => game.tick backend.config elapsed
  | .reset => game.reset backend.config

def play (backend : Backend) (calls : List Call) (game : Game σ) : Game σ :=
  calls.foldl (call backend) game

/-- What every call preserves holds of the game whatever is done to it. -/
theorem play_preserves {backend : Backend} (Holds : Game σ → Prop)
    (step : ∀ game call, Holds game → Holds (game.call backend call)) (calls : List Call)
    {game : Game σ} (holds : Holds game) : Holds (game.play backend calls) := by
  induction calls generalizing game with
  | nil => exact holds
  | cons first rest ih => exact ih (step game first holds)

def handle (backend : Backend) (game : Game σ) : Handling → Game σ
  | .call call => game.call backend call
  | .shutdown => game.shutdown

def handleAll (backend : Backend) (handlings : List Handling) (game : Game σ) : Game σ :=
  handlings.foldl (handle backend) game

/-- A game that is never shut down is played. -/
theorem handleAll_map_call (backend : Backend) (game : Game σ) (calls : List Call) :
    game.handleAll backend (calls.map .call) = game.play backend calls :=
  List.foldl_map

/-- What every way of handling it preserves holds of the game whatever is done to it. -/
theorem handleAll_preserves {backend : Backend} (Holds : Game σ → Prop)
    (step : ∀ game handling, Holds game → Holds (game.handle backend handling))
    (handlings : List Handling) {game : Game σ} (holds : Holds game) :
    Holds (game.handleAll backend handlings) := by
  induction handlings generalizing game with
  | nil => exact holds
  | cons first rest ih => exact ih (step game first holds)

end Game

end PuzzleShell

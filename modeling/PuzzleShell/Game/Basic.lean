import PuzzleShell.Collapse
import PuzzleShell.Command.Sets
import PuzzleShell.Countdown
import PuzzleShell.LayerSwitch
import PuzzleShell.Store.Progress
import PuzzleShell.Timers
import PuzzleShell.Transcript
import PuzzleShell.World

/-!
# The state of a game

A game is the session with the two trees, the transcript, the timed machines and the store.  The
settings and the oracles that it is played against stay the same and are kept apart.
-/

namespace PuzzleShell

inductive GameEvent where
  /-- The time of the collapse's phase is over. -/
  | phaseOver
  /-- A second of the countdown has passed. -/
  | second
  /-- The connection to the deep layer is made. -/
  | enterDeep
  /-- The connection to the deep layer is closed. -/
  | leaveDeep
  deriving DecidableEq, Repr

structure Game (σ : Type) where
  session : Session
  standardTree : Tree
  deepTree : Tree
  tool : Option Tool
  transcript : Transcript
  timers : Timers GameEvent
  collapse : Collapse
  countdown : Countdown
  /-- The timer of the next second of the countdown. -/
  countdownTimer : Option Nat
  /-- Who the player is outside of the deep layer. -/
  parked : Option Identity
  /-- Whether a change of layers is under way. -/
  switching : Bool
  store : σ

namespace Game

variable {σ : Type}

def deepHostname : String := "core"

def banner : String := "Connected to archive. Type 'help' for a list of commands."

def inputEnabled (game : Game σ) : Bool :=
  !game.switching && !game.countdown.exploded && game.collapse.phase.acceptsInput

def tree (game : Game σ) : Tree :=
  match game.session.layer with
  | .standard => game.standardTree
  | .deep => game.deepTree

def withTree (game : Game σ) (layer : Layer) (tree : Tree) : Game σ :=
  match layer with
  | .standard => { game with standardTree := tree }
  | .deep => { game with deepTree := tree }

/-- The prompt for the next line: that of the active tool, or that of the shell. -/
def prompt (config : Config) (game : Game σ) : String :=
  match game.tool with
  | some tool => tool.prompt game.session.user
  | none =>
      game.session.prompt
        (match game.session.layer with
         | .standard => config.shell.hostname
         | .deep => deepHostname)

def say (game : Game σ) (text : String) : Game σ :=
  { game with transcript := game.transcript.pushSystem text }

def answer (game : Game σ) (text : String) : Game σ :=
  { game with transcript := game.transcript.pushOutput text }

def scheduleEvent (game : Game σ) (delay : Nat) (event : GameEvent) : Game σ :=
  { game with timers := (game.timers.schedule delay event).2 }

def cancelSecond (game : Game σ) : Game σ :=
  match game.countdownTimer with
  | none => game
  | some id => { game with timers := (game.timers.cancel id).2, countdownTimer := none }

def scheduleSecond (config : Config) (game : Game σ) : Game σ :=
  let cancelled := game.cancelSecond
  let (id, timers) := cancelled.timers.schedule config.countdown.tickMs .second
  { cancelled with timers := timers, countdownTimer := some id }

/-- What the end of the countdown shows, and that it ends the active tool. -/
def detonate (game : Game σ) : Game σ :=
  ({ game.cancelSecond with tool := none }.say
    "*** COUNTDOWN EXPIRED: the archive self-destructs ***").say "Reset to start over."

/-- What the beginning of a phase does; a phase that ends by itself gets its timer. -/
def enterPhase (config : Config) (game : Game σ) (phase : Phase) : Game σ :=
  let entered :=
    match phase with
    | .systemFailure => game.say "SYSTEM FAILURE: unrecognized input threshold exceeded"
    | .shattering => game.say "the terminal shatters"
    | .recovering =>
        { game with
          session := { game.session with unknownStreak := 0 }
          tool := none
          transcript := game.transcript.clear }
    | .normal => game.say "System restored."
  match phase.holdMs? config.collapse with
  | none => entered
  | some hold =>
      let (id, timers) := entered.timers.schedule hold .phaseOver
      { entered with
        timers := timers
        collapse := { entered.collapse with timer := some id } }

variable [Store σ]

/-- Store the solved challenges; a store that fails changes nothing else. -/
def saveSolved (config : Config) (game : Game σ) : Game σ :=
  { game with
    store := (Progress.saveSolved game.store config.storage.solvedKey game.session.solved).2 }

def saveCountdown (config : Config) (game : Game σ) : Game σ :=
  { game with
    store := (Progress.saveCountdown game.store config.storage.countdownKey game.countdown).2 }

def start (config : Config) (store : σ) : Except Fault (Game σ) := do
  config.validate
  let solved := (Progress.loadSolved? store config.storage.solvedKey).getD []
  let saved := (Progress.loadCountdown? store config.storage.countdownKey).getD .inactive
  let game : Game σ :=
    { session := { Session.start config.shell.user config.shell.startPath with solved := solved }
      standardTree := World.standard config
      deepTree := World.deep
      tool := none
      transcript := .start
      timers := .start
      collapse := .start
      countdown := saved.normalized
      countdownTimer := none
      parked := none
      switching := false
      store := store }
  let greeted := game.say banner
  if greeted.countdown.exploded then
    return greeted.say "The archive is gone. Reset to start over."
  else if greeted.countdown.active then
    return (greeted.say
      ("WARNING: countermeasures still armed. " ++ toString greeted.countdown.timeLeft ++
        "s remaining.")).scheduleSecond config
  else return greeted

/-- Start over.  Only the solved challenges are kept. -/
def reset (config : Config) (game : Game σ) : Game σ :=
  let stopped : Game σ :=
    { game with
      timers := game.timers.clear
      countdownTimer := none
      collapse := (game.collapse.takeTimer.2.fire .reset).2
      countdown := .inactive }
  let saved := stopped.saveCountdown config
  { saved with
    session :=
      { Session.start config.shell.user config.shell.startPath with
        solved := saved.session.solved }
    standardTree := World.standard config
    deepTree := World.deep
    tool := none
    transcript := saved.transcript.clear.pushSystem banner
    parked := none
    switching := false }

def shutdown (game : Game σ) : Game σ :=
  { game with
    timers := game.timers.clear
    countdownTimer := none
    collapse := game.collapse.takeTimer.2 }

end Game

end PuzzleShell

import PuzzleShell.Game.Basic

/-!
# Lines of input

A line goes to the commands of the session's layer.  What the command answers may concern the
countdown, the layers or the store; a row of unknown commands may set off the collapse.
-/

namespace PuzzleShell.Game

variable {σ : Type} [Store σ]

def rejectFlag (config : Config) (game : Game σ) : Game σ :=
  let (change, countdown) := game.countdown.wrongFlag config.countdown
  let counted := { game.answer "Flag rejected." with countdown := countdown }
  let left := toString countdown.timeLeft
  let shown :=
    match change with
    | .armed =>
        (counted.say
          ("WARNING: intrusion countermeasures armed. " ++ left ++ "s remaining.")).scheduleSecond
          config
    | .penalized =>
        counted.say
          ("Penalty: -" ++ toString config.countdown.penaltySecs ++ "s. " ++ left ++
            "s remaining.")
    | .exploded => counted.detonate
    | _ => counted
  shown.saveCountdown config

def acceptFlag (config : Config) (game : Game σ) (id : Option Nat) : Game σ :=
  let thanked :=
    game.answer
      (match id with
       | some id => "Flag accepted. Challenge " ++ toString id ++ " solved."
       | none => "Flag accepted.")
  let saved := thanked.saveSolved config
  match saved.countdown.rightFlag with
  | (.disarmed, countdown) =>
      ({ saved.cancelSecond with countdown := countdown }.say
        "Countermeasures disarmed.").saveCountdown config
  | _ => saved

/-- Hold the input back until the layers are switched. -/
def beginSwitch (game : Game σ) (notice : String) (delay : Nat) (event : GameEvent) : Game σ :=
  { game.say notice with switching := true }.scheduleEvent delay event

def applyOutput (config : Config) (game : Game σ) : Output → Game σ
  | .text text => game.answer text
  | .silent => game
  | .clear => { game with transcript := game.transcript.clear }
  | .connect host =>
      game.beginSwitch ("Connecting to " ++ host ++ "...") config.layer.connectDelayMs .enterDeep
  | .disconnect =>
      game.beginSwitch "Closing connection to core..." config.layer.disconnectDelayMs .leaveDeep
  | .flagChecked true id => game.acceptFlag config id
  | .flagChecked false _ => game.rejectFlag config

def checkStreak (config : Config) (game : Game σ) : Game σ :=
  if game.collapse.triggers config.collapse game.session.unknownStreak then
    match game.collapse.fire .threshold with
    | (some phase, collapse) => { game with collapse := collapse }.enterPhase config phase
    | (none, _) => game
  else game

structure Submission (σ : Type) where
  /-- Whether the line was processed. -/
  accepted : Bool
  /-- The questions that the content oracle was asked, in order. -/
  asked : List String
  game : Game σ

def mask : String := "********"

def submit (backend : Backend) (game : Game σ) (line : String) : Submission σ :=
  if game.inputEnabled then
    let echoed := if game.tool.any Tool.masksInput then mask else line
    let layer := game.session.layer
    let (output, turn) :=
      (Registry.ofLayer layer).submit backend line ⟨game.session, game.tree, game.tool, []⟩
    let worked :=
      { game with
        transcript := game.transcript.pushInput (game.prompt backend.config) echoed
        session := turn.session
        tool := turn.tool }.withTree layer turn.tree
    ⟨true, turn.asked, (worked.applyOutput backend.config output).checkStreak backend.config⟩
  else ⟨false, [], game⟩

end PuzzleShell.Game

import PuzzleShell.Proofs.Countdown
import PuzzleShell.Proofs.Game.Tidy

/-!
# The progress in a game

What a player has solved and the countdown are all that outlives a game.  They are only touched by
flags that are judged, by the seconds of the countdown and by starting over, and whatever changes
one of them stores it at once.  The countdown never gets into a state that no transition leads to.
-/

namespace PuzzleShell

structure Progress (σ : Type) where
  solved : Solved
  countdown : Countdown
  store : σ

namespace Progress

variable {σ : Type} [Store σ]

def withSolved (storage : StorageSettings) (progress : Progress σ) (solved : Solved) :
    Progress σ where
  solved := solved
  countdown := progress.countdown
  store := (saveSolved progress.store storage.solvedKey solved).2

def withCountdown (storage : StorageSettings) (progress : Progress σ) (countdown : Countdown) :
    Progress σ where
  solved := progress.solved
  countdown := countdown
  store := (saveCountdown progress.store storage.countdownKey countdown).2

end Progress

namespace Game

variable {σ : Type} {config : Config} {game next : Game σ} {target : Nat}

@[simps]
def progress (game : Game σ) : Progress σ :=
  ⟨game.session.solved, game.countdown, game.store⟩

theorem progress_cancelSecond (game : Game σ) : game.cancelSecond.progress = game.progress := by
  unfold cancelSecond
  split <;> rfl

theorem progress_scheduleSecond (config : Config) (game : Game σ) :
    (game.scheduleSecond config).progress = game.progress :=
  game.progress_cancelSecond

theorem progress_say (game : Game σ) (text : String) :
    (game.say text).progress = game.progress := by
  simp only [say, progress]

theorem progress_answer (game : Game σ) (text : String) :
    (game.answer text).progress = game.progress := by
  simp only [answer, progress]

theorem progress_detonate (game : Game σ) : game.detonate.progress = game.progress := by
  rw [detonate, progress_say, progress_say]
  exact game.progress_cancelSecond

theorem progress_enterPhase (config : Config) (game : Game σ) (phase : Phase) :
    (game.enterPhase config phase).progress = game.progress := by
  cases phase <;> simp only [enterPhase, Phase.holdMs?, say, progress]

theorem progress_checkStreak (config : Config) (game : Game σ) :
    (game.checkStreak config).progress = game.progress := by
  rcases checkStreak_cases config game with same | ⟨-, fails⟩
  · rw [same]
  · rw [fails, progress_enterPhase]
    rfl

theorem progress_worked (game : Game σ) (shown : Transcript) (turn : Turn) :
    (game.worked shown turn).progress = { game.progress with solved := turn.session.solved } := by
  unfold worked withTree
  split <;> rfl

theorem countdown_worked (game : Game σ) (shown : Transcript) (turn : Turn) :
    (game.worked shown turn).countdown = game.countdown :=
  congrArg Progress.countdown (progress_worked game shown turn)

variable [Store σ]

/-- A countdown that has changed is stored together with what else the progress is. -/
theorem progress_saveCountdown {shown : Game σ} {before : Progress σ} {countdown : Countdown}
    (counted : shown.progress = { before with countdown := countdown }) (config : Config) :
    (shown.saveCountdown config).progress = before.withCountdown config.storage countdown := by
  have solved : shown.session.solved = before.solved := congrArg Progress.solved counted
  have same : shown.countdown = countdown := congrArg Progress.countdown counted
  have store : shown.store = before.store := congrArg Progress.store counted
  rw [saveCountdown, progress, Progress.withCountdown, solved, same, store]

theorem progress_saveSolved (config : Config) (game : Game σ) :
    (game.saveSolved config).progress =
      game.progress.withSolved config.storage game.session.solved := rfl

/-- A rejected flag does what it does to the countdown, and that is stored. -/
theorem progress_rejectFlag (config : Config) (game : Game σ) :
    (game.rejectFlag config).progress =
      game.progress.withCountdown config.storage (game.countdown.wrongFlag config.countdown).2 := by
  have counted : ({ game.answer "Flag rejected." with
      countdown := (game.countdown.wrongFlag config.countdown).2 } : Game σ).progress =
        { game.progress with countdown := (game.countdown.wrongFlag config.countdown).2 } := by
    simp only [answer, progress]
  simp only [rejectFlag]
  apply progress_saveCountdown
  split
  · rw [progress_scheduleSecond, progress_say, counted]
  · rw [progress_say, counted]
  · rw [progress_detonate, counted]
  · exact counted

/-- An accepted flag stores what is solved, and the countdown if it disarms it. -/
theorem progress_acceptFlag (config : Config) (game : Game σ) (id : Option Nat) :
    (game.acceptFlag config id).progress =
      if game.countdown.isRunning then
        (game.progress.withSolved config.storage game.session.solved).withCountdown config.storage
          .inactive
      else game.progress.withSolved config.storage game.session.solved := by
  simp only [acceptFlag]
  generalize thanked : game.answer _ = shown
  have stored : (shown.saveSolved config).progress =
      game.progress.withSolved config.storage game.session.solved := by
    rw [progress_saveSolved, ← thanked, progress_answer, answer]
  generalize shown.saveSolved config = saved at stored ⊢
  have countdown : saved.countdown = game.countdown := congrArg Progress.countdown stored
  rw [← countdown, ← stored]
  by_cases runs : saved.countdown.isRunning = true
  · simp only [Countdown.rightFlag, runs, if_true]
    apply progress_saveCountdown
    rw [progress_say, ← progress_cancelSecond saved, progress, progress]
  · simp only [Countdown.rightFlag, runs]
    rfl

/-- An answer that judges no flag leaves the progress alone. -/
theorem progress_applyOutput_of_unjudged (config : Config) (game : Game σ) {output : Output}
    (unjudged : output.Unjudged) : (game.applyOutput config output).progress = game.progress := by
  cases output with
  | text text | silent | clear | connect host | disconnect =>
      simp only [applyOutput, answer, beginSwitch, scheduleEvent, say, progress]
  | flagChecked accepted id => exact unjudged.elim

/-- A second does what it does to the countdown, and that is stored; nothing else is. -/
theorem progress_fire (config : Config) (game : Game σ) (event : GameEvent) :
    (game.fire config event).progress =
      if event = .second then game.progress.withCountdown config.storage game.countdown.tick.2
      else game.progress := by
  cases event with
  | phaseOver =>
      simp only [fire]
      split
      · exact progress_enterPhase config _ _
      · rfl
  | second =>
      simp only [fire, if_true]
      apply progress_saveCountdown
      split
      · exact progress_scheduleSecond config _
      · exact progress_detonate _
      · rfl
  | enterDeep =>
      simp only [fire]
      rw [progress_say]
      unfold Session.enterDeep
      split <;> rfl
  | leaveDeep =>
      simp only [fire]
      rw [progress_say]
      unfold Session.leaveDeep
      split <;> rfl

theorem progress_reset (config : Config) (game : Game σ) :
    (game.reset config).progress = game.progress.withCountdown config.storage .inactive := by
  simp only [reset, progress, saveCountdown, Progress.withCountdown]

/-- An answer does to the countdown what it is for. -/
theorem countdown_applyOutput (config : Config) (game : Game σ) (output : Output) :
    (game.applyOutput config output).countdown =
      game.countdown.judged config.countdown output := by
  have same (unjudged : output.Unjudged) : (game.applyOutput config output).countdown =
      game.countdown.judged config.countdown output := by
    rw [Countdown.judged_of_unjudged _ _ unjudged]
    exact congrArg Progress.countdown (progress_applyOutput_of_unjudged config game unjudged)
  cases output with
  | text text | silent | clear | connect host | disconnect => exact same trivial
  | flagChecked accepted id =>
      cases accepted with
      | true =>
          have stored := congrArg Progress.countdown (progress_acceptFlag config game id)
          rw [progress_countdown] at stored
          simp only [applyOutput, stored, Countdown.judged, Countdown.rightFlag]
          split <;> rfl
      | false => exact congrArg Progress.countdown (progress_rejectFlag config game)

/-- A line that is processed does to the countdown what its answer does. -/
theorem countdown_submit (backend : Backend) (line : String) (enabled : game.inputEnabled = true) :
    (game.submit backend line).game.countdown =
      game.countdown.judged backend.config.countdown (game.typed backend line).1 := by
  obtain ⟨shown, processed⟩ := submit_game_eq backend line enabled
  have checked := congrArg Progress.countdown (progress_checkStreak backend.config
    ((game.worked shown (game.typed backend line).2).applyOutput backend.config
      (game.typed backend line).1))
  rw [progress_countdown, progress_countdown] at checked
  rw [processed, checked, countdown_applyOutput, countdown_worked]

theorem submit_of_not_inputEnabled {backend : Backend} (disabled : game.inputEnabled = false)
    (line : String) : game.submit backend line = ⟨false, [], game⟩ := by
  unfold submit
  rw [if_neg (by rw [disabled]; decide)]

theorem countdown_fire (config : Config) (game : Game σ) (event : GameEvent) :
    (game.fire config event).countdown =
      if event = .second then game.countdown.tick.2 else game.countdown := by
  have fired := congrArg Progress.countdown (progress_fire config game event)
  rw [progress_countdown] at fired
  rw [fired]
  split <;> rfl

theorem proper_submit (backend : Backend) (line : String) (proper : game.countdown.Proper) :
    (game.submit backend line).game.countdown.Proper := by
  by_cases enabled : game.inputEnabled = true
  · rw [countdown_submit backend line enabled]
    exact proper.judged _ _
  · rw [submit_of_not_inputEnabled (Bool.not_eq_true _ ▸ enabled)]
    exact proper

theorem proper_step? (proper : game.countdown.Proper)
    (stepped : game.step? config target = some next) : next.countdown.Proper := by
  obtain ⟨entry, timers, popped, rfl⟩ := step?_eq_some_iff.1 stepped
  rw [countdown_fire]
  split
  · exact proper.tick
  · exact proper

theorem proper_runDue (config : Config) (target : Nat) (proper : game.countdown.Proper) :
    (game.runDue config target).countdown.Proper :=
  runDue_preserves (fun game : Game σ => game.countdown.Proper)
    (fun _ _ stepped proper => proper_step? proper stepped) proper

theorem proper_call (backend : Backend) (game : Game σ) (call : Call)
    (proper : game.countdown.Proper) : (game.call backend call).countdown.Proper := by
  cases call with
  | submit line => exact proper_submit backend line proper
  | tick elapsed => exact proper_runDue backend.config _ proper
  | reset => exact .inactive

theorem proper_handle (backend : Backend) (game : Game σ) (handling : Handling)
    (proper : game.countdown.Proper) : (game.handle backend handling).countdown.Proper := by
  cases handling with
  | call call => exact proper_call backend game call proper
  | shutdown => exact proper

/-- What is stored may be any countdown, but a game does not start with any other than these. -/
theorem proper_start {store : σ} (started : start config store = .ok game) :
    game.countdown.Proper := by
  rw [(opened_start started).countdown]
  exact Countdown.proper_normalized _

end Game

end PuzzleShell

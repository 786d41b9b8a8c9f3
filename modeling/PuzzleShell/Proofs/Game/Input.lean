import PuzzleShell.Proofs.Command.Layers
import PuzzleShell.Proofs.Game.Discipline
import PuzzleShell.Game.Input

/-!
# A line is typed in a game

Whatever a command answers, the machines stay disciplined: a flag starts or stops the countdown
together with its timer, a change of layers begins where none is under way, and a row of unknown
commands sets off a collapse where there is none.
-/

namespace PuzzleShell

/-- What a rejected flag may do to a countdown. -/
theorem Countdown.wrongFlag_cases (settings : CountdownSettings) (countdown : Countdown) :
    (∃ after, countdown.wrongFlag settings = (.armed, after) ∧ after.isRunning = true) ∨
      (∃ after, countdown.wrongFlag settings = (.penalized, after) ∧
        after.isRunning = countdown.isRunning) ∨
      countdown.wrongFlag settings = (.exploded, spent) ∨
      countdown.wrongFlag settings = (.unchanged, countdown) := by
  obtain ⟨active, left, exploded⟩ := countdown
  cases exploded with
  | true => simp [wrongFlag]
  | false =>
      cases active with
      | true =>
          by_cases last : left ≤ settings.penaltySecs
          · simp [wrongFlag, shorten, last]
          · simp [wrongFlag, shorten, last, isRunning]
      | false =>
          by_cases never : settings.initialSecs = 0
          · simp [wrongFlag, never]
          · simp [wrongFlag, never, isRunning]

namespace Game

variable {σ : Type} {config : Config} {game : Game σ}

theorem machines_withTree (game : Game σ) (layer : Layer) (tree : Tree) :
    (game.withTree layer tree).machines = game.machines := by
  cases layer <;> rfl

theorem switching_of_inputEnabled (enabled : game.inputEnabled = true) :
    game.switching = false := by
  simp only [inputEnabled, Bool.and_eq_true, Bool.not_eq_true'] at enabled
  exact enabled.1.1

/-- A line may ask for a change of layers only where none is under way. -/
theorem disciplined_beginSwitch (disciplined : game.machines.Disciplined)
    (still : game.switching = false) (notice : String) (delay : Nat) {event : GameEvent}
    (fits : event = .enterDeep ∧ game.session.layer = .standard ∨
      event = .leaveDeep ∧ game.session.layer = .deep) :
    (game.beginSwitch notice delay event).machines.Disciplined := by
  have awaits := Timers.Awaits.schedule disciplined.wellFormed delay event
  have free : game.machines.timers.waiting event = [] := by
    have entering := disciplined.enterDeep
    have leaving := disciplined.leaveDeep
    rw [machines_switching, still, if_neg (by simp)] at entering leaving
    rcases fits with ⟨rfl, -⟩ | ⟨rfl, -⟩
    · exact List.length_eq_zero_iff.1 entering
    · exact List.length_eq_zero_iff.1 leaving
  rw [free] at awaits
  have begun : (game.beginSwitch notice delay event).machines =
      { game.machines with
        timers := (game.machines.timers.schedule delay event).2, switching := true } := by
    simp only [beginSwitch, scheduleEvent, machines, say]
  rw [begun]
  exact disciplined.withSwitch awaits still fits

theorem disciplined_checkStreak (config : Config) (disciplined : game.machines.Disciplined) :
    (game.checkStreak config).machines.Disciplined := by
  unfold checkStreak
  split
  next triggered =>
    have normal : game.collapse.phase = .normal := by
      simp only [Collapse.triggers, Bool.and_eq_true, decide_eq_true_eq] at triggered
      exact triggered.1
    have free : game.collapse.timer = none := by
      have lasting := disciplined.lasting
      rw [machines_collapse, normal] at lasting
      simpa using lasting
    have none : game.timers.waiting .phaseOver = [] := by
      have awaited := disciplined.phaseOver
      rw [machines_collapse, free] at awaited
      exact awaited
    obtain ⟨timers, timer, busy, entered, awaits, set, idle⟩ :=
      @machines_enterPhase σ { game with collapse := ⟨.systemFailure, game.collapse.timer⟩ } config
        disciplined.wellFormed none free .systemFailure
    simp only [Collapse.fire, normal, Phase.next?]
    rw [entered]
    exact disciplined.withPhase awaits set idle
  · exact disciplined

variable [Store σ]

theorem disciplined_rejectFlag (config : Config) (disciplined : game.machines.Disciplined) :
    (game.rejectFlag config).machines.Disciplined := by
  simp only [rejectFlag]
  rw [machines_saveCountdown]
  rcases game.countdown.wrongFlag_cases config.countdown with
    ⟨after, armed, runs⟩ | ⟨after, penalized, same⟩ | exploded | unchanged
  · simp only [armed]
    refine disciplined_scheduleSecond config disciplined ?_ runs
    simp only [machines, say, answer]
  · simp only [penalized]
    refine disciplined_of_isRunning_eq disciplined ?_ same
    simp only [machines, say, answer]
  · simp only [exploded]
    refine @disciplined_detonate σ _ _ .spent disciplined ?_ rfl
    simp only [machines, answer]
  · simp only [unchanged]
    refine disciplined_of_isRunning_eq disciplined ?_ rfl
    simp only [machines, answer]

theorem disciplined_acceptFlag (config : Config) (disciplined : game.machines.Disciplined)
    (id : Option Nat) : (game.acceptFlag config id).machines.Disciplined := by
  simp only [acceptFlag]
  -- Thanks and the stored challenges leave the machines as they are; only the countdown is left.
  generalize thanked : game.answer _ = shown
  have quiet : (shown.saveSolved config).machines = game.machines := by
    rw [← thanked]
    simp only [machines, saveSolved, answer]
  generalize shown.saveSolved config = saved at quiet ⊢
  rw [← quiet] at disciplined
  by_cases runs : saved.countdown.isRunning = true
  · obtain ⟨timers, cancelled, awaits⟩ :=
      machines_cancelSecond disciplined.wellFormed disciplined.second
    simp only [Countdown.rightFlag, runs, if_true]
    rw [machines_saveCountdown]
    have disarmed : ({ saved.cancelSecond with countdown := .inactive }.say
        "Countermeasures disarmed.").machines =
        { saved.cancelSecond.machines with countdown := .inactive } := by
      simp only [machines, say]
    rw [disarmed, cancelled]
    exact disciplined.withSecond awaits rfl fun idle => idle
  · simp only [Countdown.rightFlag, runs]
    exact disciplined

theorem disciplined_applyOutput (config : Config) (disciplined : game.machines.Disciplined)
    (still : game.switching = false) {output : Output} (fits : output.Fits game.session.layer) :
    (game.applyOutput config output).machines.Disciplined := by
  cases output with
  | text text =>
      have same : (game.applyOutput config (.text text)).machines = game.machines := by
        simp only [applyOutput, machines, answer]
      rw [same]
      exact disciplined
  | silent => exact disciplined
  | clear =>
      have same : (game.applyOutput config .clear).machines = game.machines := by
        simp only [applyOutput, machines]
      rw [same]
      exact disciplined
  | connect host =>
      unfold applyOutput
      exact disciplined_beginSwitch disciplined still _ _ (Or.inl ⟨rfl, fits⟩)
  | disconnect =>
      unfold applyOutput
      exact disciplined_beginSwitch disciplined still _ _ (Or.inr ⟨rfl, fits⟩)
  | flagChecked accepted id =>
      cases accepted with
      | true => exact disciplined_acceptFlag config disciplined id
      | false => exact disciplined_rejectFlag config disciplined

theorem disciplined_submit (backend : Backend) (line : String)
    (disciplined : game.machines.Disciplined) :
    (game.submit backend line).game.machines.Disciplined := by
  unfold submit
  split
  next enabled =>
    have still := switching_of_inputEnabled enabled
    have within : Turn.Within game.session.layer ⟨game.session, game.tree, game.tool, []⟩ :=
      ⟨rfl, tool_eq_none disciplined⟩
    have ended := Registry.fits_submit backend line within
    dsimp only
    revert ended
    generalize (Registry.ofLayer game.session.layer).submit backend line
      ⟨game.session, game.tree, game.tool, []⟩ = result
    rintro ⟨⟨stays, idle⟩, fits⟩
    apply disciplined_checkStreak
    -- What was typed and what the command did to the trees is of no concern to the machines.
    generalize game.transcript.pushInput _ _ = transcript
    generalize working : ({ game with
      transcript := transcript, session := result.2.session,
      tool := result.2.tool }.withTree game.session.layer result.2.tree) = worked
    have same : worked.machines = { game.machines with busy := result.2.tool.isSome } := by
      rw [← working, machines_withTree]
      simp only [machines, stays]
    have layers : worked.session.layer = game.session.layer := congrArg Machines.layer same
    have waits : worked.switching = false := (congrArg Machines.switching same).trans still
    refine disciplined_applyOutput backend.config ?_ waits ?_
    · rw [same]
      refine disciplined.withTool fun deep => ?_
      rw [idle deep]
      rfl
    · rw [layers]
      exact fits
  · exact disciplined

end Game

end PuzzleShell

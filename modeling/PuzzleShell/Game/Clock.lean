import PuzzleShell.Game.Basic

/-!
# The clock

Time passes by a number of milliseconds, and every timer that falls due within it fires in its
turn.  A timer that fires may set another one, also one that is due at once, but each does so only
after using up a second of the countdown or a phase of the collapse.  So there is an end to it:
`workLeft` gets smaller with every timer that fires.
-/

namespace PuzzleShell

namespace Game

variable {σ : Type}

def secondsLeft (countdown : Countdown) : Nat :=
  if countdown.isRunning then countdown.timeLeft else 0

/-- A bound on the number of timers that can still fire without any input. -/
def workLeft (game : Game σ) : Nat :=
  secondsLeft game.countdown + game.collapse.phase.remaining + game.timers.pending.length

theorem workLeft_cancelSecond_le (game : Game σ) : game.cancelSecond.workLeft ≤ game.workLeft := by
  unfold cancelSecond
  split
  · exact Nat.le_refl _
  next id _ =>
      have := game.timers.length_cancel_le id
      simp only [workLeft]
      omega

theorem workLeft_detonate_le (game : Game σ) : game.detonate.workLeft ≤ game.workLeft := by
  have cancelled := game.workLeft_cancelSecond_le
  simpa [detonate, say, workLeft] using cancelled

theorem workLeft_scheduleSecond_le (config : Config) (game : Game σ) :
    (game.scheduleSecond config).workLeft ≤ game.workLeft + 1 := by
  have cancelled := game.workLeft_cancelSecond_le
  have scheduled := game.cancelSecond.timers.length_schedule config.countdown.tickMs .second
  simp only [scheduleSecond, workLeft] at *
  omega

/-- A phase that ends by itself sets one timer. -/
theorem workLeft_enterPhase_le (config : Config) (game : Game σ) (phase : Phase) :
    (game.enterPhase config phase).workLeft ≤ game.workLeft + 1 := by
  cases phase <;>
    simp [enterPhase, Phase.holdMs?, workLeft, say, Timers.length_schedule] <;> omega

/-- The phase after one that ended is nearer to the normal one. -/
theorem remaining_next? {phase next : Phase} (h : phase.next? .holdElapsed = some next) :
    next.remaining + 1 = phase.remaining := by
  cases phase <;> simp [Phase.next?] at h <;> subst h <;> rfl

/-- A second that passes leaves one second less, or else no running countdown. -/
theorem secondsLeft_tick (countdown : Countdown) :
    (countdown.tick.1 = .ticked → secondsLeft countdown.tick.2 + 1 = secondsLeft countdown) ∧
      secondsLeft countdown.tick.2 ≤ secondsLeft countdown := by
  obtain ⟨active, left, exploded⟩ := countdown
  cases active <;> cases exploded <;>
    simp [Countdown.tick, Countdown.isRunning, Countdown.shorten, secondsLeft]
  split <;> simp [Countdown.spent]
  omega

variable [Store σ]

def fire (config : Config) (game : Game σ) : GameEvent → Game σ
  | .phaseOver =>
      match game.collapse.takeTimer.2.fire .holdElapsed with
      | (some phase, collapse) => { game with collapse := collapse }.enterPhase config phase
      | (none, collapse) => { game with collapse := collapse }
  | .second =>
      let (change, countdown) := game.countdown.tick
      let counted := { game with countdownTimer := none, countdown := countdown }
      let shown :=
        match change with
        | .ticked => counted.scheduleSecond config
        | .exploded => counted.detonate
        | _ => counted
      shown.saveCountdown config
  | .enterDeep =>
      let (session, parked) := game.session.enterDeep config.shell game.parked
      { game with switching := false, tool := none, session := session, parked := parked }.say
        "Access granted. You are below the archive now."
  | .leaveDeep =>
      let (session, parked) := game.session.leaveDeep game.parked
      { game with switching := false, tool := none, session := session, parked := parked }.say
        "Connection to core closed."

/-- Fire the timer that falls due first, if there is one up to a time. -/
def step? (config : Config) (target : Nat) (game : Game σ) : Option (Game σ) :=
  match game.timers.pop? target with
  | none => none
  | some (entry, timers) => some ({ game with timers := timers }.fire config entry.event)

theorem workLeft_saveCountdown (config : Config) (game : Game σ) :
    (game.saveCountdown config).workLeft = game.workLeft :=
  rfl

/-- A timer that fires leaves no more to do than there was beside it. -/
theorem workLeft_fire_le (config : Config) (game : Game σ) (event : GameEvent) :
    (game.fire config event).workLeft ≤ game.workLeft := by
  cases event with
  | phaseOver =>
      simp only [fire, Collapse.fire, Collapse.takeTimer]
      cases h : game.collapse.phase.next? .holdElapsed with
      | none => simp [workLeft]
      | some phase =>
          have nearer := remaining_next? h
          have entered := workLeft_enterPhase_le config
            { game with collapse := { game.collapse with phase := phase, timer := none } } phase
          simp only [workLeft] at *
          omega
  | second =>
      obtain ⟨exact, atMost⟩ := secondsLeft_tick game.countdown
      simp only [fire]
      rw [workLeft_saveCountdown]
      split
      next ticked =>
          have left := exact ticked
          have := workLeft_scheduleSecond_le config
            { game with countdownTimer := none, countdown := game.countdown.tick.2 }
          simp only [workLeft] at *
          omega
      · have := workLeft_detonate_le
          { game with countdownTimer := none, countdown := game.countdown.tick.2 }
        simp only [workLeft] at *
        omega
      · simp only [workLeft]
        omega
  | enterDeep => simp [fire, say, workLeft]
  | leaveDeep => simp [fire, say, workLeft]

/-- Every timer that fires brings the end nearer. -/
theorem workLeft_step?_lt {config : Config} {target : Nat} {game next : Game σ}
    (stepped : game.step? config target = some next) : next.workLeft < game.workLeft := by
  unfold step? at stepped
  split at stepped
  · simp at stepped
  next entry timers popped =>
      have fired := workLeft_fire_le config { game with timers := timers } entry.event
      have shorter := Timers.length_pop? popped
      rw [← Option.some.inj stepped]
      simp only [workLeft] at *
      omega

/-- Fire every timer that falls due up to a time, in order. -/
def runDue (config : Config) (target : Nat) (game : Game σ) : Game σ :=
  match _stepped : game.step? config target with
  | none => game
  | some next => next.runDue config target
termination_by game.workLeft
decreasing_by exact workLeft_step?_lt _stepped

def tick (config : Config) (game : Game σ) (elapsed : Nat) : Game σ :=
  let target := later game.timers.now elapsed
  let ran := game.runDue config target
  { ran with timers := ran.timers.advanceTo target }

end Game

end PuzzleShell

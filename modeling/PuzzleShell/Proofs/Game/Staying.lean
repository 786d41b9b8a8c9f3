import PuzzleShell.Proofs.Game.Progress
import PuzzleShell.Proofs.Game.Punctual

/-!
# What stays pending

A timer is taken back by starting over and by the end of a game, and the second of a countdown that
stops is taken back with it.  Nothing else takes a timer back: what falls due leaves all others
pending, and so does a line that is typed.
-/

namespace PuzzleShell.Game

variable {σ : Type} {config : Config} {game : Game σ} {entry : Pending GameEvent}

/-- A tidy countdown waits for one timer at most. -/
theorem eq_of_second {other : Pending GameEvent} (tidy : game.machines.Tidy)
    (here : entry ∈ game.timers.pending) (second : entry.event = .second)
    (there : other ∈ game.timers.pending) (too : other.event = .second) : other = entry := by
  have number := tidy.countdownTimer_eq here second
  rw [tidy.countdownTimer_eq there too] at number
  exact tidy.wellFormed.entry_eq there here (Option.some.inj number)

/-- A tidy collapse waits for one timer at most. -/
theorem eq_of_phaseOver {other : Pending GameEvent} (tidy : game.machines.Tidy)
    (here : entry ∈ game.timers.pending) (phaseOver : entry.event = .phaseOver)
    (there : other ∈ game.timers.pending) (too : other.event = .phaseOver) : other = entry := by
  have number := tidy.timer_eq here phaseOver
  rw [tidy.timer_eq there too] at number
  exact tidy.wellFormed.entry_eq there here (Option.some.inj number)

/-- What falls due is not pending any more, and all the rest is. -/
theorem mem_pending_pop? {target : Nat} {popped : Pending GameEvent} {timers : Timers GameEvent}
    (tidy : game.machines.Tidy) (taken : game.timers.pop? target = some (popped, timers))
    (member : entry ∈ game.timers.pending) : entry = popped ∨ entry ∈ timers.pending := by
  obtain ⟨here, -, pending⟩ := Timers.pop?_eq_some tidy.wellFormed taken
  by_cases same : entry.id = popped.id
  · exact Or.inl (tidy.wellFormed.entry_eq member here same)
  · rw [pending]
    exact Or.inr (List.mem_filter.2 ⟨member, by simpa using same⟩)

theorem mem_pending_schedule_of_mem {timers : Timers GameEvent} (delay : Nat) (event : GameEvent)
    (member : entry ∈ timers.pending) : entry ∈ (timers.schedule delay event).2.pending :=
  List.mem_append_left _ member

/-- A second that is set is pending. -/
theorem exists_pending_scheduleSecond (config : Config) (game : Game σ) :
    ∃ entry ∈ (game.scheduleSecond config).timers.pending,
      entry.event = .second ∧ entry.due = later game.timers.now config.countdown.tickMs := by
  refine ⟨_, List.mem_append_right _ (List.mem_singleton_self _), rfl, ?_⟩
  rw [now_cancelSecond]

theorem timers_say (game : Game σ) (text : String) : (game.say text).timers = game.timers := by
  simp only [say]

theorem timers_answer (game : Game σ) (text : String) :
    (game.answer text).timers = game.timers := by
  simp only [answer]

theorem cancelSecond_of_none (none : game.countdownTimer = none) : game.cancelSecond = game := by
  rw [cancelSecond, none]

/-- Taking back the countdown's second takes back nothing else. -/
theorem mem_pending_cancelSecond (tidy : game.machines.Tidy) (member : entry ∈ game.timers.pending)
    (other : entry.event ≠ .second) : entry ∈ game.cancelSecond.timers.pending := by
  cases timer : game.countdownTimer with
  | none =>
      rw [cancelSecond_of_none timer]
      exact member
  | some id =>
      have awaited : game.timers.waiting .second = [id] := by
        have second := tidy.second
        rw [machines_countdownTimer, timer] at second
        exact second
      obtain ⟨set, pending, second, number⟩ :=
        Timers.mem_waiting_iff.1 (awaited ▸ List.mem_singleton_self id)
      have different : entry.id ≠ id := by
        intro same
        rw [tidy.wellFormed.entry_eq member pending (same.trans number.symm)] at other
        exact other second
      simp only [cancelSecond, timer]
      exact List.mem_filter.2 ⟨member, by simpa using different⟩

/-- A phase that ends by itself has its end pending. -/
theorem exists_pending_enterPhase (game : Game σ) {phase : Phase} {hold : Nat}
    (lasts : phase.holdMs? config.collapse = some hold) :
    ∃ entry ∈ (game.enterPhase config phase).timers.pending,
      entry.event = .phaseOver ∧ entry.due = later game.timers.now hold := by
  cases phase with
  | normal => cases lasts
  | systemFailure | shattering | recovering =>
      cases lasts
      exact ⟨_, List.mem_append_right _ (List.mem_singleton_self _), rfl, rfl⟩

theorem mem_pending_enterPhase (config : Config) (phase : Phase)
    (member : entry ∈ game.timers.pending) :
    entry ∈ (game.enterPhase config phase).timers.pending := by
  cases phase with
  | normal => exact member
  | systemFailure | shattering | recovering => exact mem_pending_schedule_of_mem _ _ member

theorem mem_pending_checkStreak (config : Config) (member : entry ∈ game.timers.pending) :
    entry ∈ (game.checkStreak config).timers.pending := by
  rcases checkStreak_cases config game with same | ⟨-, fails⟩
  · rw [same]
    exact member
  · rw [fails]
    exact mem_pending_enterPhase config _ member

variable [Store σ]

/-- What fires takes nothing back. -/
theorem mem_pending_fire (config : Config) (event : GameEvent)
    (member : entry ∈ game.timers.pending) :
    entry ∈ (game.fire config event).timers.pending := by
  cases event with
  | phaseOver =>
      simp only [fire]
      split
      · exact mem_pending_enterPhase config _ member
      · exact member
  | second =>
      -- The countdown has forgotten the timer that has fired, so there is none to take back.
      simp only [fire, saveCountdown]
      split
      · rw [scheduleSecond, cancelSecond_of_none rfl]
        exact mem_pending_schedule_of_mem _ _ member
      · rw [detonate, cancelSecond_of_none rfl]
        exact member
      · exact member
  | enterDeep | leaveDeep => exact member

/-- An answer that is no verdict takes nothing back. -/
theorem mem_pending_applyOutput_of_unjudged (config : Config) {output : Output}
    (unjudged : output.Unjudged) (member : entry ∈ game.timers.pending) :
    entry ∈ (game.applyOutput config output).timers.pending := by
  unfold applyOutput
  cases output with
  | text text => exact member
  | silent | clear => exact member
  | connect host | disconnect => exact mem_pending_schedule_of_mem _ _ member
  | flagChecked accepted id => exact unjudged.elim

theorem mem_pending_rejectFlag (config : Config) (tidy : game.machines.Tidy)
    (member : entry ∈ game.timers.pending) (other : entry.event ≠ .second) :
    entry ∈ (game.rejectFlag config).timers.pending := by
  simp only [rejectFlag, saveCountdown]
  generalize shown : game.answer "Flag rejected." = answered
  have answeredTidy : answered.machines.Tidy := by
    rw [← shown, machines_answer]
    exact tidy
  have still : entry ∈ answered.timers.pending := by
    rw [← shown, timers_answer]
    exact member
  split
  · refine mem_pending_schedule_of_mem _ _ (mem_pending_cancelSecond ?_ ?_ other)
    · rw [machines_say]
      exact answeredTidy.of_eq rfl rfl rfl rfl
    · rw [timers_say]
      exact still
  · rw [timers_say]
    exact still
  · rw [detonate, timers_say, timers_say]
    exact mem_pending_cancelSecond (answeredTidy.of_eq rfl rfl rfl rfl) still other
  · exact still

theorem mem_pending_acceptFlag (config : Config) (id : Option Nat) (tidy : game.machines.Tidy)
    (member : entry ∈ game.timers.pending) (other : entry.event ≠ .second) :
    entry ∈ (game.acceptFlag config id).timers.pending := by
  simp only [acceptFlag]
  generalize thanked : game.answer _ = shown
  have quiet : (shown.saveSolved config).machines.Tidy := by
    rw [← thanked, machines_saveSolved, machines_answer]
    exact tidy
  have still : entry ∈ (shown.saveSolved config).timers.pending := by
    rw [← thanked, saveSolved, timers_answer]
    exact member
  generalize shown.saveSolved config = saved at quiet still ⊢
  split
  · rw [saveCountdown, timers_say]
    exact mem_pending_cancelSecond quiet still other
  · exact still

/-- A line takes nothing back but a second of the countdown. -/
theorem mem_pending_submit (backend : Backend) (line : String) (tidy : game.machines.Tidy)
    (member : entry ∈ game.timers.pending) (other : entry.event ≠ .second) :
    entry ∈ (game.submit backend line).game.timers.pending := by
  by_cases enabled : game.inputEnabled = true
  · obtain ⟨shown, processed⟩ := submit_game_eq backend line enabled
    rw [processed]
    apply mem_pending_checkStreak
    have worked := tidy_worked backend line tidy shown
    rw [← timers_worked game shown (game.typed backend line).2] at member
    generalize game.worked shown (game.typed backend line).2 = working at worked member ⊢
    cases answered : (game.typed backend line).1 with
    | text | silent | clear | connect | disconnect =>
        exact mem_pending_applyOutput_of_unjudged _ trivial member
    | flagChecked accepted id =>
        cases accepted with
        | true => exact mem_pending_acceptFlag _ id worked member other
        | false => exact mem_pending_rejectFlag _ worked member other
  · rw [submit_of_not_inputEnabled (Bool.not_eq_true _ ▸ enabled)]
    exact member

/-- A penalty does not put off the next second of a countdown that goes on. -/
theorem timers_rejectFlag_of_lt {left : Nat} (runs : game.countdown = ⟨true, left, false⟩)
    (more : config.countdown.penaltySecs < left) :
    (game.rejectFlag config).timers = game.timers := by
  simp only [rejectFlag, saveCountdown, runs, Countdown.wrongFlag_running,
    if_neg (Nat.not_le.2 more)]
  rw [timers_say, timers_answer]

end PuzzleShell.Game

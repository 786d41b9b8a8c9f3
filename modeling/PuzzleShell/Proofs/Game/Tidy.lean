import PuzzleShell.Proofs.Command.Line
import PuzzleShell.Proofs.Game.Beginning

/-!
# Tidy timers

The countdown and the collapse keep the number of the timer that they wait for.  Whatever is done to
a game, also after it has been shut down, that number is the one of the only timer that is pending
for them: a new one is not set before the old one has fired or has been taken back.  A change of
layers keeps no number, but its timer is the only one as well, since the input is held back until
it has fired.
-/

namespace PuzzleShell

/-- The event that leads out of a layer. -/
def Layer.wayOut : Layer → GameEvent
  | .standard => .enterDeep
  | .deep => .leaveDeep

theorem Layer.wayOut_injective : Function.Injective Layer.wayOut := by
  intro layer other same
  cases layer <;> cases other <;> first | rfl | cases same

/-- The layer that a change of layers is under way from. -/
def Machines.leaving? (machines : Machines) : Option Layer :=
  if machines.switching then some machines.layer else none

/--
The numbers that are kept are those of the timers that are pending, and nothing but the way out of a
layer that is being left is pending beside them.
-/
structure Machines.Tidy (machines : Machines) : Prop where
  wellFormed : machines.timers.WellFormed
  second : machines.timers.waiting .second = machines.countdownTimer.toList
  phaseOver : machines.timers.waiting .phaseOver = machines.collapse.timer.toList
  normal : machines.collapse.phase = .normal → machines.collapse.timer = none
  wayOut : ∀ layer, (machines.timers.waiting layer.wayOut).length ≤
    if machines.leaving? = some layer then 1 else 0

namespace Machines

variable {machines after : Machines} {layer : Layer}

theorem leaving?_eq_some_iff :
    machines.leaving? = some layer ↔ machines.switching = true ∧ machines.layer = layer := by
  unfold leaving?
  split
  next under => simp [under]
  next still => simp [still]

theorem Disciplined.tidy (disciplined : machines.Disciplined) : machines.Tidy := by
  refine ⟨disciplined.wellFormed, disciplined.second, disciplined.phaseOver, fun normal => ?_,
    fun layer => ?_⟩
  · have lasting := disciplined.lasting
    rw [normal] at lasting
    simpa using lasting
  · simp only [leaving?_eq_some_iff]
    cases layer with
    | standard => exact Nat.le_of_eq disciplined.enterDeep
    | deep => exact Nat.le_of_eq disciplined.leaveDeep

namespace Tidy

/-- What does not concern the timers and what is kept of them leaves them tidy. -/
theorem of_eq (tidy : machines.Tidy) (timers : after.timers = machines.timers)
    (countdownTimer : after.countdownTimer = machines.countdownTimer)
    (collapse : after.collapse = machines.collapse)
    (leaving : after.leaving? = machines.leaving?) : after.Tidy := by
  constructor
  · rw [timers]
    exact tidy.wellFormed
  · rw [timers, countdownTimer]
    exact tidy.second
  · rw [timers, collapse]
    exact tidy.phaseOver
  · rw [collapse]
    exact tidy.normal
  · rw [timers, leaving]
    exact tidy.wayOut

theorem withSecond (tidy : machines.Tidy)
    (awaits : Timers.Awaits machines.timers after.timers .second after.countdownTimer.toList)
    (collapse : after.collapse = machines.collapse)
    (leaving : after.leaving? = machines.leaving?) : after.Tidy where
  wellFormed := awaits.wellFormed
  second := awaits.here
  phaseOver := by
    rw [awaits.others .phaseOver (by decide), collapse]
    exact tidy.phaseOver
  normal := by
    rw [collapse]
    exact tidy.normal
  wayOut layer := by
    rw [awaits.others layer.wayOut (by cases layer <;> decide), leaving]
    exact tidy.wayOut layer

theorem withPhase (tidy : machines.Tidy)
    (awaits : Timers.Awaits machines.timers after.timers .phaseOver after.collapse.timer.toList)
    (countdownTimer : after.countdownTimer = machines.countdownTimer)
    (normal : after.collapse.phase = .normal → after.collapse.timer = none)
    (leaving : after.leaving? = machines.leaving?) : after.Tidy where
  wellFormed := awaits.wellFormed
  second := by
    rw [awaits.others .second (by decide), countdownTimer]
    exact tidy.second
  phaseOver := awaits.here
  normal := normal
  wayOut layer := by
    rw [awaits.others layer.wayOut (by cases layer <;> decide), leaving]
    exact tidy.wayOut layer

/-- Nothing is pending for the way out of a layer that is not being left. -/
theorem waiting_wayOut_eq_nil (tidy : machines.Tidy) (stays : machines.leaving? ≠ some layer) :
    machines.timers.waiting layer.wayOut = [] := by
  have none := tidy.wayOut layer
  rw [if_neg stays] at none
  exact List.length_eq_zero_iff.1 (Nat.le_zero.1 none)

theorem leaving?_of_mem (tidy : machines.Tidy) {id : Nat}
    (set : id ∈ machines.timers.waiting layer.wayOut) : machines.leaving? = some layer := by
  by_contra stays
  rw [tidy.waiting_wayOut_eq_nil stays] at set
  cases set

/-- The way out of the player's layer may come to be awaited or not. -/
theorem withSwitch (tidy : machines.Tidy) {ids : List Nat}
    (awaits : Timers.Awaits machines.timers after.timers machines.layer.wayOut ids)
    (countdownTimer : after.countdownTimer = machines.countdownTimer)
    (collapse : after.collapse = machines.collapse)
    (few : ids.length ≤ if after.leaving? = some machines.layer then 1 else 0) : after.Tidy where
  wellFormed := awaits.wellFormed
  second := by
    rw [awaits.others .second (by cases machines.layer <;> decide), countdownTimer]
    exact tidy.second
  phaseOver := by
    rw [awaits.others .phaseOver (by cases machines.layer <;> decide), collapse]
    exact tidy.phaseOver
  normal := by
    rw [collapse]
    exact tidy.normal
  wayOut layer := by
    by_cases here : layer = machines.layer
    · rw [here, awaits.here]
      exact few
    · -- The way out of the other layer was not awaited before.
      rw [awaits.others layer.wayOut (Layer.wayOut_injective.ne here),
        tidy.waiting_wayOut_eq_nil fun leaving => here (leaving?_eq_some_iff.1 leaving).2.symm]
      exact Nat.zero_le _

/-- A pending second has the number that the countdown keeps. -/
theorem countdownTimer_eq (tidy : machines.Tidy) {entry : Pending GameEvent}
    (member : entry ∈ machines.timers.pending) (second : entry.event = .second) :
    machines.countdownTimer = some entry.id := by
  have awaited := Timers.mem_waiting_iff.2 ⟨entry, member, second, rfl⟩
  rw [tidy.second] at awaited
  exact Option.mem_toList.1 awaited

/-- A pending end of a phase has the number that the collapse keeps. -/
theorem timer_eq (tidy : machines.Tidy) {entry : Pending GameEvent}
    (member : entry ∈ machines.timers.pending) (phaseOver : entry.event = .phaseOver) :
    machines.collapse.timer = some entry.id := by
  have awaited := Timers.mem_waiting_iff.2 ⟨entry, member, phaseOver, rfl⟩
  rw [tidy.phaseOver] at awaited
  exact Option.mem_toList.1 awaited

/-- No event is pending twice. -/
theorem length_waiting_le (tidy : machines.Tidy) (event : GameEvent) :
    (machines.timers.waiting event).length ≤ 1 := by
  have atMost : ∀ layer, (machines.timers.waiting (Layer.wayOut layer)).length ≤ 1 := by
    intro layer
    refine Nat.le_trans (tidy.wayOut layer) ?_
    split <;> omega
  cases event with
  | phaseOver =>
      rw [tidy.phaseOver]
      exact Option.length_toList_le
  | second =>
      rw [tidy.second]
      exact Option.length_toList_le
  | enterDeep => exact atMost .standard
  | leaveDeep => exact atMost .deep

/-- In the normal phase no end of a phase is waited for. -/
theorem waiting_phaseOver_of_normal (tidy : machines.Tidy)
    (normal : machines.collapse.phase = .normal) : machines.timers.waiting .phaseOver = [] := by
  rw [tidy.phaseOver, tidy.normal normal]
  rfl

end Tidy

end Machines

namespace Game

variable {σ : Type} {config : Config} {game next : Game σ} {target : Nat}

/-- An event that falls due was pending, and it is not pending again. -/
theorem tidy_pop? {entry : Pending GameEvent} {timers : Timers GameEvent}
    (tidy : game.machines.Tidy) (popped : game.timers.pop? target = some (entry, timers)) :
    entry.id ∈ game.timers.waiting entry.event ∧
      Timers.Awaits game.timers timers entry.event [] := by
  obtain ⟨set, taken⟩ := Timers.Awaits.pop? tidy.wellFormed popped
  rw [filter_ne_eq_nil (tidy.length_waiting_le entry.event) set] at taken
  exact ⟨set, taken⟩

/-- The end of a phase is only waited for in a phase that ends. -/
theorem exists_next?_of_tidy {id : Nat} (tidy : game.machines.Tidy)
    (set : id ∈ game.timers.waiting .phaseOver) :
    ∃ phase, game.collapse.phase.next? .holdElapsed = some phase := by
  refine Phase.exists_next?_of_ne_normal fun normal => ?_
  have free : game.timers.waiting .phaseOver = [] := tidy.waiting_phaseOver_of_normal normal
  rw [free] at set
  cases set

theorem tidy_cancelSecond (tidy : game.machines.Tidy) : game.cancelSecond.machines.Tidy := by
  obtain ⟨timers, cancelled, awaits⟩ := machines_cancelSecond tidy.wellFormed tidy.second
  rw [cancelled]
  exact tidy.withSecond awaits rfl rfl

theorem tidy_scheduleSecond (config : Config) (tidy : game.machines.Tidy) :
    (game.scheduleSecond config).machines.Tidy := by
  obtain ⟨timers, id, scheduled, awaits⟩ :=
    machines_scheduleSecond config tidy.wellFormed tidy.second
  rw [scheduled]
  exact tidy.withSecond awaits rfl rfl

theorem tidy_detonate (tidy : game.machines.Tidy) : game.detonate.machines.Tidy := by
  obtain ⟨timers, ended, awaits⟩ := machines_detonate tidy.wellFormed tidy.second
  rw [ended]
  exact tidy.withSecond awaits rfl rfl

/-- A phase is entered without a timer yet, and gets one unless it is the normal one. -/
theorem tidy_enterPhase (config : Config) {before : Machines} (tidy : before.Tidy)
    (free : before.timers.waiting .phaseOver = []) (timers : game.timers = before.timers)
    (countdownTimer : game.countdownTimer = before.countdownTimer)
    (leaving : game.machines.leaving? = before.leaving?) (taken : game.collapse.timer = none)
    {phase : Phase} (entered : game.collapse.phase = phase) :
    (game.enterPhase config phase).machines.Tidy := by
  rw [← timers] at free
  obtain ⟨after, timer, busy, set, awaits, lasting, -⟩ :=
    machines_enterPhase config (timers ▸ tidy.wellFormed) free taken phase
  rw [set]
  rw [timers] at awaits
  refine tidy.withPhase awaits countdownTimer (fun normal => ?_) leaving
  rw [← entered, show game.collapse.phase = .normal from normal] at lasting
  simpa using lasting

theorem tidy_checkStreak (config : Config) (tidy : game.machines.Tidy) :
    (game.checkStreak config).machines.Tidy := by
  rcases checkStreak_cases config game with same | ⟨normal, fails⟩
  · rw [same]
    exact tidy
  · rw [fails]
    have free : game.timers.waiting .phaseOver = [] := tidy.waiting_phaseOver_of_normal normal
    have taken : game.collapse.timer = none := tidy.normal normal
    exact @tidy_enterPhase σ
      { game with collapse := { game.collapse with phase := .systemFailure } } config _ tidy free
      rfl rfl rfl taken _ rfl

/-- Of the machines a line that is typed concerns nothing but the tool, before it is answered. -/
theorem machines_worked_typed (backend : Backend) (game : Game σ) (line : String)
    (shown : Transcript) :
    (game.worked shown (game.typed backend line).2).machines =
      { game.machines with busy := (game.typed backend line).2.tool.isSome } := by
  have stays : (game.typed backend line).2.session.layer = game.session.layer :=
    (Registry.submitted game.session.layer backend line game.turn).layer
  unfold worked
  rw [machines_withTree]
  simp only [machines, stays]

theorem tidy_worked (backend : Backend) (line : String) (tidy : game.machines.Tidy)
    (shown : Transcript) : (game.worked shown (game.typed backend line).2).machines.Tidy := by
  rw [machines_worked_typed]
  exact tidy.of_eq rfl rfl rfl rfl

/-- A change of layers that begins is the only one. -/
theorem tidy_beginSwitch (tidy : game.machines.Tidy) (still : game.switching = false)
    (notice : String) (delay : Nat) :
    (game.beginSwitch notice delay game.session.layer.wayOut).machines.Tidy := by
  have free : game.machines.timers.waiting game.session.layer.wayOut = [] := by
    refine tidy.waiting_wayOut_eq_nil fun leaving => ?_
    have under := (Machines.leaving?_eq_some_iff.1 leaving).1
    rw [machines_switching, still] at under
    cases under
  have awaits := Timers.Awaits.schedule tidy.wellFormed delay game.session.layer.wayOut
  rw [free] at awaits
  have begun : (game.beginSwitch notice delay game.session.layer.wayOut).machines =
      { game.machines with
        timers := (game.machines.timers.schedule delay game.session.layer.wayOut).2
        switching := true } := by
    simp only [beginSwitch, scheduleEvent, machines, say]
  rw [begun]
  refine tidy.withSwitch awaits rfl rfl ?_
  rw [if_pos (Machines.leaving?_eq_some_iff.2 ⟨rfl, rfl⟩)]
  exact Nat.le_refl 1

/-- Nothing is pending after the end of a game. -/
theorem tidy_shutdown (game : Game σ) : game.shutdown.machines.Tidy :=
  ⟨Timers.wellFormed_of_nil rfl, rfl, rfl, fun _ => rfl, fun _ => Nat.zero_le _⟩

variable [Store σ]

theorem tidy_fire_second (tidy : game.machines.Tidy) {timers : Timers GameEvent}
    (taken : Timers.Awaits game.timers timers .second []) :
    ({ game with timers := timers }.fire config .second).machines.Tidy := by
  simp only [fire]
  rw [machines_saveCountdown]
  generalize counted : ({ game with
    timers := timers, countdownTimer := none, countdown := game.countdown.tick.2 } : Game σ) =
      passed
  have free : passed.machines.Tidy := by
    rw [← counted]
    exact tidy.withSecond taken rfl rfl
  split
  · exact tidy_scheduleSecond config free
  · exact tidy_detonate free
  · exact free

theorem tidy_fire_phaseOver (tidy : game.machines.Tidy) {timers : Timers GameEvent}
    (taken : Timers.Awaits game.timers timers .phaseOver []) :
    ({ game with timers := timers }.fire config .phaseOver).machines.Tidy := by
  have free : Machines.Tidy { game.machines with
      timers := timers, collapse := { game.collapse with timer := none } } :=
    tidy.withPhase taken rfl (fun _ => rfl) rfl
  cases elapsed : game.collapse.phase.next? .holdElapsed with
  | none =>
      simp only [fire, Collapse.takeTimer, Collapse.fire, elapsed]
      exact free
  | some phase =>
      rw [@fire_phaseOver σ { game with timers := timers } _ _ elapsed]
      exact @tidy_enterPhase σ { game with timers := timers, collapse := ⟨phase, .none⟩ } config _
        free taken.here rfl rfl rfl rfl _ rfl

/-- Once the way out of a layer has been taken, nothing is pending for it. -/
theorem tidy_fire_wayOut (tidy : game.machines.Tidy) {timers : Timers GameEvent} {layer : Layer}
    {id : Nat} (set : id ∈ game.timers.waiting layer.wayOut)
    (taken : Timers.Awaits game.timers timers layer.wayOut []) :
    ({ game with timers := timers }.fire config layer.wayOut).machines.Tidy := by
  have here : game.session.layer = layer :=
    (Machines.leaving?_eq_some_iff.1 (tidy.leaving?_of_mem set)).2
  rw [← here] at taken ⊢
  cases game.session.layer <;> exact tidy.withSwitch taken rfl rfl (Nat.zero_le _)

/-- A timer that falls due leaves the timers tidy, whatever it was set for. -/
theorem tidy_step? (tidy : game.machines.Tidy) (stepped : game.step? config target = some next) :
    next.machines.Tidy := by
  obtain ⟨entry, timers, popped, rfl⟩ := step?_eq_some_iff.1 stepped
  obtain ⟨set, taken⟩ := tidy_pop? tidy popped
  generalize entry.event = event at set taken ⊢
  cases event with
  | phaseOver => exact tidy_fire_phaseOver tidy taken
  | second => exact tidy_fire_second tidy taken
  | enterDeep => exact @tidy_fire_wayOut _ _ _ _ tidy _ .standard _ set taken
  | leaveDeep => exact @tidy_fire_wayOut _ _ _ _ tidy _ .deep _ set taken

theorem tidy_tick (config : Config) (elapsed : Nat) (tidy : game.machines.Tidy) :
    (game.tick config elapsed).machines.Tidy := by
  have ran := @runDue_preserves σ game _ config (later game.timers.now elapsed)
    (fun game => game.machines.Tidy) (fun _ _ stepped tidy => tidy_step? tidy stepped) tidy
  exact ⟨ran.wellFormed.advanceTo _, ran.second, ran.phaseOver, ran.normal, ran.wayOut⟩

theorem tidy_rejectFlag (config : Config) (tidy : game.machines.Tidy) :
    (game.rejectFlag config).machines.Tidy := by
  simp only [rejectFlag]
  rw [machines_saveCountdown]
  have counted : ∀ countdown : Countdown,
      ({ game.answer "Flag rejected." with countdown := countdown } : Game σ).machines.Tidy := by
    intro countdown
    have same : ({ game.answer "Flag rejected." with countdown := countdown } : Game σ).machines =
        { game.machines with countdown := countdown } := by
      simp only [machines, answer]
    rw [same]
    exact tidy.of_eq rfl rfl rfl rfl
  split
  · apply tidy_scheduleSecond
    rw [machines_say]
    exact counted _
  · rw [machines_say]
    exact counted _
  · exact tidy_detonate (counted _)
  · exact counted _

theorem tidy_acceptFlag (config : Config) (tidy : game.machines.Tidy) (id : Option Nat) :
    (game.acceptFlag config id).machines.Tidy := by
  simp only [acceptFlag]
  generalize thanked : game.answer _ = shown
  have quiet : (shown.saveSolved config).machines.Tidy := by
    rw [← thanked, machines_saveSolved, machines_answer]
    exact tidy
  generalize shown.saveSolved config = saved at quiet ⊢
  split
  · rw [machines_saveCountdown, machines_say]
    exact (tidy_cancelSecond quiet).of_eq rfl rfl rfl rfl
  · exact quiet

theorem tidy_applyOutput (config : Config) (tidy : game.machines.Tidy)
    (still : game.switching = false) {output : Output} (fits : output.Fits game.session.layer) :
    (game.applyOutput config output).machines.Tidy := by
  unfold applyOutput
  cases output with
  | text text =>
      dsimp only
      rw [machines_answer]
      exact tidy
  | silent => exact tidy
  | clear => exact tidy.of_eq rfl rfl rfl rfl
  | connect host =>
      have begun := tidy_beginSwitch tidy still
      rw [show game.session.layer = .standard from fits] at begun
      exact begun _ _
  | disconnect =>
      have begun := tidy_beginSwitch tidy still
      rw [show game.session.layer = .deep from fits] at begun
      exact begun _ _
  | flagChecked accepted id =>
      cases accepted with
      | true => exact tidy_acceptFlag config tidy id
      | false => exact tidy_rejectFlag config tidy

theorem tidy_submit (backend : Backend) (line : String) (tidy : game.machines.Tidy) :
    (game.submit backend line).game.machines.Tidy := by
  by_cases enabled : game.inputEnabled = true
  · obtain ⟨shown, processed⟩ := submit_game_eq backend line enabled
    rw [processed]
    have same := machines_worked_typed backend game line shown
    have worked := tidy_worked backend line tidy shown
    have fits := Registry.fits_answer backend line (rfl : game.turn.session.layer = _)
    generalize game.worked shown (game.typed backend line).2 = working at same worked ⊢
    have layer : working.session.layer = game.session.layer := congrArg Machines.layer same
    have still : working.switching = game.switching := congrArg Machines.switching same
    rw [switching_of_inputEnabled enabled] at still
    exact tidy_checkStreak _ (tidy_applyOutput _ worked still (layer ▸ fits))
  · unfold submit
    rw [if_neg enabled]
    exact tidy

theorem tidy_handle (backend : Backend) (game : Game σ) (handling : Handling)
    (tidy : game.machines.Tidy) : (game.handle backend handling).machines.Tidy := by
  cases handling with
  | call call =>
      cases call with
      | submit line => exact tidy_submit backend line tidy
      | tick elapsed => exact tidy_tick backend.config elapsed tidy
      | reset => exact (disciplined_reset backend.config game).tidy
  | shutdown => exact tidy_shutdown game

end Game

end PuzzleShell

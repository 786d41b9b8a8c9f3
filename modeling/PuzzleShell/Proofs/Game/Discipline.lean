import PuzzleShell.Game.Clock
import PuzzleShell.Proofs.Timers

/-!
# The timed machines of a game

The countdown, the collapse and the change of layers share one set of timers.  Each machine has a
timer exactly while it is under way, and no timer is left behind when it stops.
-/

namespace PuzzleShell

/-- What time works on in a game. -/
structure Machines where
  timers : Timers GameEvent
  countdown : Countdown
  countdownTimer : Option Nat
  collapse : Collapse
  layer : Layer
  switching : Bool
  /-- Whether an identity is parked. -/
  parked : Bool
  /-- Whether a tool is active. -/
  busy : Bool

@[simps]
def Game.machines {σ : Type} (game : Game σ) : Machines where
  timers := game.timers
  countdown := game.countdown
  countdownTimer := game.countdownTimer
  collapse := game.collapse
  layer := game.session.layer
  switching := game.switching
  parked := game.parked.isSome
  busy := game.tool.isSome

/-- Every machine is awaited by its own timer while it is under way, and by none otherwise. -/
structure Machines.Disciplined (machines : Machines) : Prop where
  wellFormed : machines.timers.WellFormed
  second : machines.timers.waiting .second = machines.countdownTimer.toList
  running : machines.countdownTimer.isSome = machines.countdown.isRunning
  phaseOver : machines.timers.waiting .phaseOver = machines.collapse.timer.toList
  lasting : machines.collapse.timer.isSome = decide (machines.collapse.phase ≠ .normal)
  enterDeep : (machines.timers.waiting .enterDeep).length =
    if machines.switching = true ∧ machines.layer = .standard then 1 else 0
  leaveDeep : (machines.timers.waiting .leaveDeep).length =
    if machines.switching = true ∧ machines.layer = .deep then 1 else 0
  parked : machines.parked = decide (machines.layer = .deep)
  idle : machines.layer = .deep → machines.busy = false

namespace Game

variable {σ : Type} {config : Config} {game : Game σ}

theorem machines_saveCountdown [Store σ] (config : Config) (game : Game σ) :
    (game.saveCountdown config).machines = game.machines := rfl

theorem machines_saveSolved [Store σ] (config : Config) (game : Game σ) :
    (game.saveSolved config).machines = game.machines := rfl

theorem machines_say (game : Game σ) (text : String) :
    (game.say text).machines = game.machines := by
  simp only [machines, say]

theorem machines_answer (game : Game σ) (text : String) :
    (game.answer text).machines = game.machines := by
  simp only [machines, answer]

theorem filter_ne_eq_nil {ids : List Nat} {id : Nat} (atMost : ids.length ≤ 1)
    (member : id ∈ ids) : ids.filter (· ≠ id) = [] := by
  match ids, atMost, member with
  | [one], _, member =>
      rw [List.mem_singleton] at member
      simp [member]

/-- The countdown's timer is taken back, whether there was one or not. -/
theorem machines_cancelSecond (wellFormed : game.timers.WellFormed)
    (set : game.timers.waiting .second = game.countdownTimer.toList) :
    ∃ timers, game.cancelSecond.machines =
        { game.machines with timers := timers, countdownTimer := none } ∧
      Timers.Awaits game.timers timers .second [] := by
  cases timer : game.countdownTimer with
  | none =>
      refine ⟨game.timers, ?_, ?_⟩
      · simp only [cancelSecond, machines, timer]
      · have awaits := Timers.Awaits.refl wellFormed GameEvent.second
        rw [set, timer] at awaits
        exact awaits
  | some id =>
      rw [timer] at set
      have member : id ∈ game.timers.waiting .second := by
        rw [set]
        exact List.mem_singleton_self id
      refine ⟨(game.timers.cancel id).2, by simp only [cancelSecond, machines, timer], ?_⟩
      have cancelled := Timers.Awaits.cancel wellFormed member
      rw [filter_ne_eq_nil (by rw [set]; exact Nat.le_refl 1) member] at cancelled
      exact cancelled

/-- Setting the countdown's timer takes the one before it back. -/
theorem machines_scheduleSecond (config : Config) (wellFormed : game.timers.WellFormed)
    (set : game.timers.waiting .second = game.countdownTimer.toList) :
    ∃ timers id, (game.scheduleSecond config).machines =
        { game.machines with timers := timers, countdownTimer := some id } ∧
      Timers.Awaits game.timers timers .second [id] := by
  obtain ⟨timers, cancelled, awaits⟩ := machines_cancelSecond wellFormed set
  have left : game.cancelSecond.timers = timers := congrArg Machines.timers cancelled
  refine ⟨(timers.schedule config.countdown.tickMs .second).2, timers.nextId, ?_, ?_⟩
  · have scheduled : (game.scheduleSecond config).machines =
        { game.cancelSecond.machines with
          timers := (game.cancelSecond.timers.schedule config.countdown.tickMs .second).2
          countdownTimer := some game.cancelSecond.timers.nextId } := rfl
    rw [scheduled, cancelled, left]
  · have scheduled := Timers.Awaits.schedule awaits.wellFormed config.countdown.tickMs .second
    rw [awaits.here] at scheduled
    exact awaits.trans scheduled

theorem machines_detonate (wellFormed : game.timers.WellFormed)
    (set : game.timers.waiting .second = game.countdownTimer.toList) :
    ∃ timers, game.detonate.machines =
        { game.machines with timers := timers, countdownTimer := none, busy := false } ∧
      Timers.Awaits game.timers timers .second [] := by
  obtain ⟨timers, cancelled, awaits⟩ := machines_cancelSecond wellFormed set
  refine ⟨timers, ?_, awaits⟩
  have ended : game.detonate.machines = { game.cancelSecond.machines with busy := false } := rfl
  rw [ended, cancelled]

/-- A phase that is entered has a timer, unless it is the normal one. -/
theorem machines_enterPhase (config : Config) (wellFormed : game.timers.WellFormed)
    (free : game.timers.waiting .phaseOver = []) (taken : game.collapse.timer = none)
    (phase : Phase) :
    ∃ timers timer busy, (game.enterPhase config phase).machines =
        { game.machines with
          timers := timers, collapse := ⟨game.collapse.phase, timer⟩, busy := busy } ∧
      Timers.Awaits game.timers timers .phaseOver timer.toList ∧
      timer.isSome = decide (phase ≠ .normal) ∧ (game.machines.busy = false → busy = false) := by
  have scheduled : ∀ hold, Timers.Awaits game.timers (game.timers.schedule hold .phaseOver).2
      .phaseOver (some (game.timers.schedule hold .phaseOver).1).toList := by
    intro hold
    have awaits := Timers.Awaits.schedule wellFormed hold GameEvent.phaseOver
    rw [free] at awaits
    exact awaits
  cases phase with
  | normal =>
      refine ⟨game.timers, none, game.machines.busy, ?_, ?_, rfl, id⟩
      · rw [← taken]
        simp only [enterPhase, Phase.holdMs?, machines, say]
      · have awaits := Timers.Awaits.refl wellFormed GameEvent.phaseOver
        rw [free] at awaits
        exact awaits
  | systemFailure =>
      refine ⟨_, _, game.machines.busy, ?_, scheduled config.collapse.failureMs, rfl, id⟩
      simp only [enterPhase, Phase.holdMs?, machines, say]
  | shattering =>
      refine ⟨_, _, game.machines.busy, ?_, scheduled config.collapse.shatterMs, rfl, id⟩
      simp only [enterPhase, Phase.holdMs?, machines, say]
  | recovering =>
      refine ⟨_, _, false, ?_, scheduled config.collapse.recoverMs, rfl, fun _ => rfl⟩
      simp only [enterPhase, Phase.holdMs?, machines, Option.isSome_none]

end Game

namespace Machines.Disciplined

variable {machines : Machines} {timers : Timers GameEvent}

/-- No event is pending twice. -/
theorem length_waiting_le (disciplined : machines.Disciplined) (event : GameEvent) :
    (machines.timers.waiting event).length ≤ 1 := by
  cases event with
  | phaseOver =>
      rw [disciplined.phaseOver]
      exact Option.length_toList_le
  | second =>
      rw [disciplined.second]
      exact Option.length_toList_le
  | enterDeep =>
      rw [disciplined.enterDeep]
      split <;> omega
  | leaveDeep =>
      rw [disciplined.leaveDeep]
      split <;> omega

/-- The deep layer is only entered from the standard one. -/
theorem standard_of_enterDeep (disciplined : machines.Disciplined)
    (set : machines.timers.waiting .enterDeep ≠ []) : machines.layer = .standard := by
  have positive := List.length_pos_iff.2 set
  rw [disciplined.enterDeep] at positive
  split at positive
  next under => exact under.2
  · omega

theorem deep_of_leaveDeep (disciplined : machines.Disciplined)
    (set : machines.timers.waiting .leaveDeep ≠ []) : machines.layer = .deep := by
  have positive := List.length_pos_iff.2 set
  rw [disciplined.leaveDeep] at positive
  split at positive
  next under => exact under.2
  · omega

/-- A tool may come and go, but not in the deep layer. -/
theorem withTool (disciplined : machines.Disciplined) {busy : Bool}
    (idle : machines.layer = .deep → busy = false) :
    Disciplined { machines with busy := busy } :=
  { disciplined with idle := idle }

/-- The countdown and its timer may change together. -/
theorem withSecond (disciplined : machines.Disciplined) {timer : Option Nat}
    {countdown : Countdown} {busy : Bool}
    (awaits : Timers.Awaits machines.timers timers .second timer.toList)
    (running : timer.isSome = countdown.isRunning) (idle : machines.busy = false → busy = false) :
    Disciplined { machines with
      timers := timers, countdown := countdown, countdownTimer := timer, busy := busy } where
  wellFormed := awaits.wellFormed
  second := awaits.here
  running := running
  phaseOver := (awaits.others .phaseOver (by decide)).trans disciplined.phaseOver
  lasting := disciplined.lasting
  enterDeep :=
    (congrArg List.length (awaits.others .enterDeep (by decide))).trans disciplined.enterDeep
  leaveDeep :=
    (congrArg List.length (awaits.others .leaveDeep (by decide))).trans disciplined.leaveDeep
  parked := disciplined.parked
  idle deep := idle (disciplined.idle deep)

/-- The phase and its timer may change together. -/
theorem withPhase (disciplined : machines.Disciplined) {collapse : Collapse} {busy : Bool}
    (awaits : Timers.Awaits machines.timers timers .phaseOver collapse.timer.toList)
    (lasting : collapse.timer.isSome = decide (collapse.phase ≠ .normal))
    (idle : machines.busy = false → busy = false) :
    Disciplined { machines with timers := timers, collapse := collapse, busy := busy } where
  wellFormed := awaits.wellFormed
  second := (awaits.others .second (by decide)).trans disciplined.second
  running := disciplined.running
  phaseOver := awaits.here
  lasting := lasting
  enterDeep :=
    (congrArg List.length (awaits.others .enterDeep (by decide))).trans disciplined.enterDeep
  leaveDeep :=
    (congrArg List.length (awaits.others .leaveDeep (by decide))).trans disciplined.leaveDeep
  parked := disciplined.parked
  idle deep := idle (disciplined.idle deep)

/-- A change of layers may begin where none is under way. -/
theorem withSwitch (disciplined : machines.Disciplined) {id : Nat} {event : GameEvent}
    (awaits : Timers.Awaits machines.timers timers event [id]) (still : machines.switching = false)
    (fits : event = .enterDeep ∧ machines.layer = .standard ∨
      event = .leaveDeep ∧ machines.layer = .deep) :
    Disciplined { machines with timers := timers, switching := true } := by
  have entering := disciplined.enterDeep
  have leaving := disciplined.leaveDeep
  rw [still, if_neg (by simp)] at entering leaving
  rcases fits with ⟨rfl, standard⟩ | ⟨rfl, deep⟩
  · refine ⟨awaits.wellFormed, ?_, disciplined.running, ?_, disciplined.lasting, ?_, ?_,
      disciplined.parked, disciplined.idle⟩
    · exact (awaits.others .second (by decide)).trans disciplined.second
    · exact (awaits.others .phaseOver (by decide)).trans disciplined.phaseOver
    · rw [awaits.here, if_pos ⟨rfl, standard⟩]
      rfl
    · rw [awaits.others .leaveDeep (by decide), leaving, if_neg (by simp [standard])]
  · refine ⟨awaits.wellFormed, ?_, disciplined.running, ?_, disciplined.lasting, ?_, ?_,
      disciplined.parked, disciplined.idle⟩
    · exact (awaits.others .second (by decide)).trans disciplined.second
    · exact (awaits.others .phaseOver (by decide)).trans disciplined.phaseOver
    · rw [awaits.others .enterDeep (by decide), entering, if_neg (by simp [deep])]
    · rw [awaits.here, if_pos ⟨rfl, deep⟩]
      rfl

/-- A change of layers that is over leaves nothing pending that could change them again. -/
theorem withLayer (disciplined : machines.Disciplined) {event : GameEvent} {layer : Layer}
    (awaits : Timers.Awaits machines.timers timers event [])
    (fits : event = .enterDeep ∧ machines.layer = .standard ∨
      event = .leaveDeep ∧ machines.layer = .deep) :
    Disciplined { machines with
      timers := timers, layer := layer, switching := false, parked := decide (layer = .deep),
      busy := false } := by
  have entering := disciplined.enterDeep
  have leaving := disciplined.leaveDeep
  rcases fits with ⟨rfl, standard⟩ | ⟨rfl, deep⟩
  · refine ⟨awaits.wellFormed, ?_, disciplined.running, ?_, disciplined.lasting, ?_, ?_, rfl,
      fun _ => rfl⟩
    · exact (awaits.others .second (by decide)).trans disciplined.second
    · exact (awaits.others .phaseOver (by decide)).trans disciplined.phaseOver
    · rw [awaits.here, if_neg (by simp)]
      rfl
    · rw [if_neg (by simp [standard])] at leaving
      rw [awaits.others .leaveDeep (by decide), leaving, if_neg (by simp)]
  · refine ⟨awaits.wellFormed, ?_, disciplined.running, ?_, disciplined.lasting, ?_, ?_, rfl,
      fun _ => rfl⟩
    · exact (awaits.others .second (by decide)).trans disciplined.second
    · exact (awaits.others .phaseOver (by decide)).trans disciplined.phaseOver
    · rw [if_neg (by simp [deep])] at entering
      rw [awaits.others .enterDeep (by decide), entering, if_neg (by simp)]
    · rw [awaits.here, if_neg (by simp)]
      rfl

end Machines.Disciplined

namespace Game

variable {σ : Type} {game : Game σ} {machines : Machines} {countdown : Countdown}

/-- A countdown that has begun to run gets its timer. -/
theorem disciplined_scheduleSecond (config : Config) (disciplined : machines.Disciplined)
    (same : game.machines = { machines with countdown := countdown })
    (runs : countdown.isRunning = true) : (game.scheduleSecond config).machines.Disciplined := by
  have before : Machines.Disciplined { game.machines with countdown := machines.countdown } := by
    rw [same]
    exact disciplined
  obtain ⟨timers, timer, scheduled, awaits⟩ :=
    machines_scheduleSecond config before.wellFormed before.second
  have shared : game.timers = machines.timers := congrArg Machines.timers same
  rw [shared] at awaits
  rw [scheduled, same]
  exact disciplined.withSecond awaits runs.symm id

/-- A countdown that has run out loses its timer. -/
theorem disciplined_detonate (disciplined : machines.Disciplined)
    (same : game.machines = { machines with countdown := countdown })
    (finished : countdown.isRunning = false) : game.detonate.machines.Disciplined := by
  have before : Machines.Disciplined { game.machines with countdown := machines.countdown } := by
    rw [same]
    exact disciplined
  obtain ⟨timers, ended, awaits⟩ := machines_detonate before.wellFormed before.second
  have shared : game.timers = machines.timers := congrArg Machines.timers same
  rw [shared] at awaits
  rw [ended, same]
  exact disciplined.withSecond awaits finished.symm fun _ => rfl

/-- A countdown that goes on as it did needs no other timer. -/
theorem disciplined_of_isRunning_eq (disciplined : machines.Disciplined)
    (same : game.machines = { machines with countdown := countdown })
    (running : countdown.isRunning = machines.countdown.isRunning) :
    game.machines.Disciplined := by
  have awaits := Timers.Awaits.refl disciplined.wellFormed GameEvent.second
  rw [disciplined.second] at awaits
  rw [same]
  exact disciplined.withSecond awaits (disciplined.running.trans running.symm) id

/-- No tool is active in the deep layer. -/
theorem tool_eq_none (disciplined : game.machines.Disciplined)
    (deep : game.session.layer = .deep) : game.tool = none := by
  have idle : game.tool.isSome = false := disciplined.idle deep
  rw [Option.isSome_eq_false_iff, Option.isNone_iff_eq_none] at idle
  exact idle

end Game

end PuzzleShell

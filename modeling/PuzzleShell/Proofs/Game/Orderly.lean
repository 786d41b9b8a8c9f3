import PuzzleShell.Proofs.Game.Clock
import PuzzleShell.Proofs.Game.Input
import PuzzleShell.Proofs.Game.Play

/-!
# Timers in every game

From its start on a game keeps the machines and their timers together, whatever is typed, however
much time passes and however often it is started over.
-/

namespace PuzzleShell

/-- Machines at rest are disciplined as long as nothing is pending. -/
theorem Machines.disciplined_atRest {timers : Timers GameEvent} {countdown : Countdown}
    (nothing : timers.pending = []) (still : countdown.isRunning = false) :
    Disciplined ⟨timers, countdown, none, .start, .standard, false, false, false⟩ := by
  have none : ∀ event, timers.waiting event = [] := by
    intro event
    rw [Timers.waiting, nothing]
    rfl
  refine ⟨Timers.wellFormed_of_nil nothing, none _, still.symm, none _, rfl, ?_, ?_, rfl,
    fun _ => rfl⟩
  · simp [none]
  · simp [none]

theorem Collapse.reset_eq_start (collapse : Collapse) :
    (collapse.takeTimer.2.fire .reset).2 = .start := by
  obtain ⟨phase, timer⟩ := collapse
  cases phase <;> rfl

/-- What is pending is pending for one of the four events. -/
theorem Timers.length_pending (timers : Timers GameEvent) :
    timers.pending.length =
      (timers.waiting .phaseOver).length + (timers.waiting .second).length +
        ((timers.waiting .enterDeep).length + (timers.waiting .leaveDeep).length) := by
  simp only [waiting, List.length_map]
  induction timers.pending with
  | nil => rfl
  | cons entry rest ih =>
      obtain ⟨id, due, event⟩ := entry
      cases event <;> simp [ih] <;> omega

namespace Game

variable {σ : Type} [Store σ] {config : Config} {game : Game σ}

/-- A game can be started with valid settings, whatever the store holds. -/
theorem exists_start (valid : config.validate = .ok ()) (store : σ) :
    ∃ game, start config store = .ok game ∧ game.machines.Disciplined := by
  unfold start
  rw [valid]
  generalize (Progress.loadSolved? store config.storage.solvedKey).getD [] = solved
  generalize (Progress.loadCountdown? store config.storage.countdownKey).getD .inactive = saved
  have rest := @Machines.disciplined_atRest .start .inactive rfl rfl
  -- Nothing but the countdown is taken from the store, so the three cases differ from rest in it.
  simp only [bind, Except.bind, say]
  generalize saved.normalized = countdown
  by_cases finished : countdown.exploded = true
  · simp only [finished, if_true]
    refine ⟨_, rfl, @disciplined_of_isRunning_eq σ _ _ countdown rest ?_ ?_⟩
    · simp only [machines, Option.isSome_none, Session.start]
    · simp [Countdown.isRunning, Countdown.inactive, finished]
  · simp only [finished]
    by_cases armed : countdown.active = true
    · simp only [armed, if_true]
      refine ⟨_, rfl, @disciplined_scheduleSecond σ _ _ countdown config rest ?_ ?_⟩
      · simp only [machines, Option.isSome_none, Session.start]
      · simp [Countdown.isRunning, finished, armed]
    · simp only [armed]
      refine ⟨_, rfl, @disciplined_of_isRunning_eq σ _ _ countdown rest ?_ ?_⟩
      · simp only [machines, Option.isSome_none, Session.start]
      · simp [Countdown.isRunning, Countdown.inactive, armed]

theorem disciplined_reset (config : Config) (game : Game σ) :
    (game.reset config).machines.Disciplined := by
  have rest : (game.reset config).machines =
      ⟨game.timers.clear, .inactive, none, .start, .standard, false, false, false⟩ := by
    rw [← Collapse.reset_eq_start game.collapse]
    rfl
  rw [rest]
  exact Machines.disciplined_atRest rfl rfl

theorem disciplined_call (backend : Backend) (game : Game σ) (call : Call)
    (disciplined : game.machines.Disciplined) :
    (game.call backend call).machines.Disciplined := by
  cases call with
  | submit line => exact disciplined_submit backend line disciplined
  | tick elapsed => exact disciplined_tick backend.config elapsed disciplined
  | reset => exact disciplined_reset backend.config game

end Game

/-- The timers that are pending fit the machines, and there are never more than three. -/
structure Game.Orderly {σ : Type} (game : Game σ) : Prop where
  running : game.countdown.isRunning = true ↔
    ∃ id, game.countdownTimer = some id ∧ id ∈ game.timers.waiting .second
  second : (game.timers.waiting .second).length =
    if game.countdown.isRunning = true then 1 else 0
  lasting : game.collapse.phase ≠ .normal ↔
    ∃ id, game.collapse.timer = some id ∧ game.timers.waiting .phaseOver = [id]
  phaseOver : game.collapse.phase = .normal → game.timers.waiting .phaseOver = []
  switching : game.switching = true ↔
    (game.timers.waiting .enterDeep).length + (game.timers.waiting .leaveDeep).length = 1
  enterDeep : game.timers.waiting .enterDeep ≠ [] → game.session.layer = .standard
  leaveDeep : game.timers.waiting .leaveDeep ≠ [] → game.session.layer = .deep
  deep : game.session.layer = .deep ↔ game.parked.isSome = true
  idle : game.session.layer = .deep → game.tool = none
  few : game.timers.pending.length ≤ 3

namespace Machines.Disciplined

variable {σ : Type} {game : Game σ}

theorem length_switch (disciplined : game.machines.Disciplined) :
    (game.timers.waiting .enterDeep).length + (game.timers.waiting .leaveDeep).length =
      if game.switching = true then 1 else 0 := by
  have entering : (game.timers.waiting .enterDeep).length =
      if game.switching = true ∧ game.session.layer = .standard then 1 else 0 :=
    disciplined.enterDeep
  have leaving : (game.timers.waiting .leaveDeep).length =
      if game.switching = true ∧ game.session.layer = .deep then 1 else 0 :=
    disciplined.leaveDeep
  rw [entering, leaving]
  cases game.session.layer <;> simp

theorem orderly (disciplined : game.machines.Disciplined) : game.Orderly := by
  have second : game.timers.waiting .second = game.countdownTimer.toList := disciplined.second
  have running : game.countdownTimer.isSome = game.countdown.isRunning := disciplined.running
  have awaited : game.timers.waiting .phaseOver = game.collapse.timer.toList :=
    disciplined.phaseOver
  have lasting : game.collapse.timer.isSome = true ↔ game.collapse.phase ≠ .normal := by
    rw [← decide_eq_true_eq (p := game.collapse.phase ≠ .normal)]
    exact iff_of_eq (congrArg (· = true) disciplined.lasting)
  have parked : game.parked.isSome = true ↔ game.session.layer = .deep := by
    rw [← decide_eq_true_eq (p := game.session.layer = .deep)]
    exact iff_of_eq (congrArg (· = true) disciplined.parked)
  have one : (game.timers.waiting .second).length =
      if game.countdown.isRunning = true then 1 else 0 := by
    rw [second, ← running]
    cases game.countdownTimer <;> rfl
  refine ⟨?_, one, ?_, ?_, ?_, ?_, ?_, parked.symm, ?_, ?_⟩
  · rw [← running, second, Option.isSome_iff_exists]
    simp
  · rw [← lasting, awaited, Option.isSome_iff_exists]
    constructor
    · rintro ⟨id, set⟩
      exact ⟨id, set, by rw [set]; rfl⟩
    · rintro ⟨id, set, -⟩
      exact ⟨id, set⟩
  · intro normal
    rw [awaited]
    cases timer : game.collapse.timer with
    | none => rfl
    | some id =>
        rw [timer] at lasting
        exact absurd normal (lasting.1 rfl)
  · rw [disciplined.length_switch]
    split
    next under => exact iff_of_true under rfl
    next still => exact iff_of_false still Nat.zero_ne_one
  · exact disciplined.standard_of_enterDeep
  · exact disciplined.deep_of_leaveDeep
  · exact Game.tool_eq_none disciplined
  · rw [Timers.length_pending, disciplined.length_switch, one]
    have most : (game.timers.waiting .phaseOver).length ≤ 1 :=
      disciplined.length_waiting_le .phaseOver
    split <;> split <;> omega

end Machines.Disciplined

namespace Game

variable {σ : Type} [Store σ]

/--
With valid settings a game can be started over any store, and whatever is typed, however much time
passes and however often it is started over, its timers fit its machines.
-/
theorem orderly_play {backend : Backend} (valid : backend.config.validate = .ok ()) (store : σ) :
    ∃ game, start backend.config store = .ok game ∧
      ∀ calls, (game.play backend calls).Orderly := by
  obtain ⟨game, started, disciplined⟩ := exists_start valid store
  refine ⟨game, started, fun calls => ?_⟩
  have kept := play_preserves (fun game : Game σ => game.machines.Disciplined)
    (disciplined_call backend) calls disciplined
  exact kept.orderly

/-- The standard settings, with an oracle that knows no text and one that accepts no flag. -/
def standardBackend : Backend :=
  ⟨.default, fun id => .error (.notFound id), fun _ => .ok ⟨false, none⟩⟩

theorem orderly_play_standardBackend :
    standardBackend.config.validate = .ok () ∧
      ∃ game, start standardBackend.config (⟨[]⟩ : MemoryStore) = .ok game ∧
        ∀ calls, (game.play standardBackend calls).Orderly :=
  ⟨rfl, orderly_play rfl (⟨[]⟩ : MemoryStore)⟩

def blunders : List Call :=
  .submit "submit x" :: List.replicate 5 (.submit "x")

example :
    (start standardBackend.config (⟨[]⟩ : MemoryStore)).toOption.map (fun game =>
      (game.play standardBackend blunders).timers.pending.map (·.event)) =
        some [.second, .phaseOver] := by
  decide +kernel

end Game

end PuzzleShell

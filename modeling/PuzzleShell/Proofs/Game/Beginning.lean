import PuzzleShell.Proofs.Game.Orderly
import PuzzleShell.Proofs.Game.Sets
import PuzzleShell.Proofs.Outcome

/-!
# The beginning of a game

A game that has just been started, and one that has just been started over, both begin in the
standard layer with the seeded trees, and nothing is pending but a second of a countdown that was
stored while it ran.
-/

namespace PuzzleShell.Game

variable {σ : Type}

structure Begun (config : Config) (game : Game σ) : Prop where
  layer : game.session.layer = .standard
  standardTree : game.standardTree = World.standard config
  deepTree : game.deepTree = World.deep
  phase : game.collapse.phase = .normal
  pending : ∀ entry ∈ game.timers.pending,
    entry.SetAt config .normal game.timers.now .second

/-- A game in which nothing is pending is at its beginning if the rest of it is. -/
theorem begun_of_nil {config : Config} {game : Game σ} (layer : game.session.layer = .standard)
    (standardTree : game.standardTree = World.standard config)
    (deepTree : game.deepTree = World.deep) (phase : game.collapse.phase = .normal)
    (nothing : game.timers.pending = []) : game.Begun config := by
  refine ⟨layer, standardTree, deepTree, phase, fun entry member => ?_⟩
  rw [nothing] at member
  cases member

/-- Setting the first second leaves everything else at its beginning. -/
theorem Begun.scheduleSecond {config : Config} {game : Game σ} (begun : game.Begun config) :
    (game.scheduleSecond config).Begun config := by
  have sets := sets_scheduleSecond config .normal (rfl : game.timers.now = game.timers.now)
  constructor
  · rw [sets.session]
    exact begun.layer
  · rw [sets.standardTree]
    exact begun.standardTree
  · rw [sets.deepTree]
    exact begun.deepTree
  · simp only [Game.scheduleSecond, collapse_cancelSecond]
    exact begun.phase
  · intro entry member
    rw [sets.now]
    rcases sets.pending entry member with before | set
    · exact begun.pending entry before
    · exact set

variable [Store σ]

structure Opened (config : Config) (store : σ) (game : Game σ) : Prop where
  session : game.session =
    { Session.start config.shell.user config.shell.startPath with
      solved := (Progress.loadSolved? store config.storage.solvedKey).getD [] }
  countdown : game.countdown =
    ((Progress.loadCountdown? store config.storage.countdownKey).getD .inactive).normalized
  store : game.store = store

/-- Setting the first second leaves the progress as it is. -/
theorem Opened.scheduleSecond {config : Config} {store : σ} {game : Game σ}
    (opened : game.Opened config store) : (game.scheduleSecond config).Opened config store := by
  have sets := sets_scheduleSecond config .normal (rfl : game.timers.now = game.timers.now)
  constructor
  · rw [sets.session]
    exact opened.session
  · simp only [Game.scheduleSecond, countdown_cancelSecond]
    exact opened.countdown
  · simp only [Game.scheduleSecond, cancelSecond]
    split <;> exact opened.store

/-- A game that starts greets the player, and a countdown that runs gets its first second. -/
theorem start_cases {config : Config} {store : σ} {game : Game σ}
    (started : start config store = .ok game) :
    ∃ greeted : Game σ, greeted.Begun config ∧ greeted.Opened config store ∧
      greeted.timers.now = 0 ∧ (game = greeted ∨ game = greeted.scheduleSecond config) := by
  unfold start at started
  obtain ⟨_, -, opened⟩ := bind_eq_ok_iff.1 started
  simp only [say, pure, Except.pure] at opened
  generalize loaded : ((Progress.loadCountdown? store config.storage.countdownKey).getD
    .inactive).normalized = countdown at opened
  by_cases finished : countdown.exploded = true
  · simp only [finished, if_true] at opened
    cases opened
    exact ⟨_, begun_of_nil rfl rfl rfl rfl rfl, ⟨rfl, loaded.symm, rfl⟩, rfl, Or.inl rfl⟩
  · simp only [finished] at opened
    by_cases armed : countdown.active = true
    · simp only [armed, if_true] at opened
      cases opened
      exact ⟨_, begun_of_nil rfl rfl rfl rfl rfl, ⟨rfl, loaded.symm, rfl⟩, rfl, Or.inr rfl⟩
    · simp only [armed] at opened
      cases opened
      exact ⟨_, begun_of_nil rfl rfl rfl rfl rfl, ⟨rfl, loaded.symm, rfl⟩, rfl, Or.inl rfl⟩

/-- A game starts at time zero. -/
theorem begun_start {config : Config} {store : σ} {game : Game σ}
    (started : start config store = .ok game) : game.Begun config ∧ game.timers.now = 0 := by
  obtain ⟨greeted, begun, -, clock, rfl | rfl⟩ := start_cases started
  · exact ⟨begun, clock⟩
  · exact ⟨begun.scheduleSecond, (sets_scheduleSecond config .normal rfl).now.trans clock⟩

/-- A game starts with the progress that the store holds. -/
theorem opened_start {config : Config} {store : σ} {game : Game σ}
    (started : start config store = .ok game) : game.Opened config store := by
  obtain ⟨greeted, -, opened, -, rfl | rfl⟩ := start_cases started
  · exact opened
  · exact opened.scheduleSecond

theorem begun_reset (config : Config) (game : Game σ) : (game.reset config).Begun config :=
  begun_of_nil rfl rfl rfl (congrArg Collapse.phase game.collapse.reset_eq_start) rfl

end PuzzleShell.Game

import PuzzleShell.Proofs.Game.Admission
import PuzzleShell.Proofs.Game.Moments
import PuzzleShell.Proofs.Game.Restart
import PuzzleShell.Proofs.Game.Row
import PuzzleShell.Proofs.World

/-!
# Starting over is a fresh start

Whatever state a game is in, starting it over leaves the game that begins over a store that holds
the same solved challenges and no countdown.  Only the clock, the numbers of the timers and the
count of wipes go on.
-/

namespace PuzzleShell

/-- Solved challenges that a store can hold: their numbers are in order and fit into 32 bits. -/
def Solved.Storable (solved : Solved) : Prop :=
  solved.Pairwise (· < ·) ∧ ∀ id ∈ solved, id < 1 <<< 32

namespace Progress

variable {σ : Type} [Store σ] {storage : StorageSettings} {solved : Solved}

/-- Whether a store holds some solved challenges and no countdown. -/
structure HoldsOnly (storage : StorageSettings) (solved : Solved) (store : σ) : Prop where
  solved : (loadSolved? store storage.solvedKey).getD [] = solved
  countdown : loadCountdown? store storage.countdownKey = none

/-- A list of solved challenges is not mistaken for a countdown: it begins with no truth value. -/
theorem countdownOf?_documentOfSolved (nonempty : solved ≠ []) :
    countdownOf? (documentOfSolved solved) = none := by
  rcases solved with _ | ⟨first, _ | ⟨second, _ | ⟨third, _ | ⟨fourth, rest⟩⟩⟩⟩
  · exact absurd rfl nonempty
  all_goals
    simp [countdownOf?, documentOfSolved, Document.asFields?, countdownFields, repeats,
      Document.optionalField?, Document.lastValue?, List.lookup_cons, Document.asBoolean?]

/-- There is a store that holds the solved challenges and no countdown, even under a single key. -/
theorem exists_holdsOnly (storage : StorageSettings) (storable : solved.Storable) :
    ∃ store : MemoryStore, HoldsOnly storage solved store := by
  by_cases nothing : solved = []
  · rw [nothing]
    exact ⟨⟨[]⟩, rfl, rfl⟩
  refine ⟨(saveSolved (⟨[]⟩ : MemoryStore) storage.solvedKey solved).2, ?_, ?_⟩
  · rw [loadSolved?_saveSolved storable.1 storable.2, Option.getD_some]
  by_cases same : storage.countdownKey = storage.solvedKey
  · rw [loadCountdown?, saveSolved, same, load?_set (plain_documentOfSolved solved),
      Option.bind_eq_bind, Option.bind_some, countdownOf?_documentOfSolved nothing]
  · rw [loadCountdown?_saveSolved same]
    rfl

end Progress

/-- The count of wipes has no part in what is added to a transcript. -/
theorem Transcript.pushSystem_generation (transcript : Transcript) (count : Nat) (text : String) :
    { transcript.pushSystem text with generation := count } =
      { transcript with generation := count }.pushSystem text := by
  simp only [pushSystem, append]

namespace Game

variable {σ : Type} {config : Config} {game : Game σ}

/-- A game apart from its store, the clock, the number of the next timer and the count of wipes. -/
def essence (game : Game σ) : Game Unit :=
  { game with
    transcript := { game.transcript with generation := 0 }
    timers := { game.timers with now := 0, nextId := 0 }
    store := () }

structure Idle (game : Game σ) : Prop where
  tool : game.tool = none
  collapse : game.collapse = ⟨.normal, none⟩
  countdown : game.countdown = .inactive
  countdownTimer : game.countdownTimer = none
  parked : game.parked = none
  switching : game.switching = false
  pending : game.timers.pending = []

/-- The essence of a game in which nothing has been done but solving challenges. -/
def freshEssence (config : Config) (solved : Solved) : Game Unit where
  session := { Session.start config.shell.user config.shell.startPath with solved := solved }
  standardTree := World.standard config
  deepTree := World.deep
  tool := none
  transcript := Transcript.start.pushSystem banner
  timers := .start
  collapse := .start
  countdown := .inactive
  countdownTimer := none
  parked := none
  switching := false
  store := ()

variable [Store σ]

/-- A game that begins without a countdown is fresh. -/
theorem exists_start_fresh (valid : config.validate = .ok ()) {store : σ} {solved : Solved}
    (holds : Progress.HoldsOnly config.storage solved store) :
    ∃ fresh, start config store = .ok fresh ∧ fresh.essence = freshEssence config solved := by
  unfold start
  rw [valid, holds.solved, holds.countdown]
  refine ⟨_, rfl, ?_⟩
  simp only [essence, freshEssence, say, Transcript.pushSystem_generation]
  rfl

theorem idle_reset (config : Config) (game : Game σ) : (game.reset config).Idle :=
  ⟨rfl, game.collapse.reset_eq_start, rfl, rfl, rfl, rfl, rfl⟩

/-- A game that is started over is fresh, with the challenges that were solved. -/
theorem essence_reset (config : Config) (game : Game σ) :
    (game.reset config).essence = freshEssence config game.session.solved := by
  have collapse := game.collapse.reset_eq_start
  simp only [essence, freshEssence, reset, saveCountdown, collapse,
    Transcript.pushSystem_generation]
  rfl

/-- Once the store accepts it, the inactive countdown is read again. -/
theorem loadCountdown?_reset [FaithfulStore σ]
    (accepted : (Progress.saveCountdown game.store config.storage.countdownKey .inactive).1 =
      .ok ()) :
    Progress.loadCountdown? (game.reset config).store config.storage.countdownKey =
      some .inactive :=
  Progress.loadCountdown?_of_accepted Progress.timeLeft_inactive_lt accepted

/-! ## What has been solved can be stored -/

/-- Whatever is typed, what has been solved afterwards can be stored. -/
theorem storable_submit {backend : Backend} (fits : backend.Fits) (line : String)
    (storable : game.session.solved.Storable) :
    (game.submit backend line).game.session.solved.Storable := by
  by_cases enabled : game.inputEnabled = true
  · obtain ⟨shown, sets⟩ := exists_sets_submit backend line .normal enabled
    have recorded := recorded_typed backend line enabled
    rw [sets.session, session_worked]
    cases judged : game.verdict? backend line with
    | none =>
        rw [(recorded.unjudged judged).2]
        exact storable
    | some verdict =>
        rw [(recorded.judged verdict judged).2]
        exact ⟨verdict.sorted_enter storable.1,
          Verdict.lt_of_mem_enter (known_of_verdict? fits judged) storable.2⟩
  · rw [submit_of_not_inputEnabled (Bool.not_eq_true _ ▸ enabled)]
    exact storable

theorem storable_handle {backend : Backend} (fits : backend.Fits) (game : Game σ)
    (handling : Handling) (storable : game.session.solved.Storable) :
    (game.handle backend handling).session.solved.Storable := by
  cases handling with
  | shutdown => exact storable
  | call call =>
      cases call with
      | submit line => exact storable_submit fits line storable
      | tick elapsed =>
          refine @tick_preserves σ backend.config game _ (fun game => game.session.solved.Storable)
            ?_ ?_ elapsed storable
          · intro before after rests known
            rw [rests.solved]
            exact known
          · intro before after crosses known
            rw [crosses.solved]
            exact known
      | reset => exact storable

theorem storable_handleAll {backend : Backend} (fits : backend.Fits) {store : σ}
    (started : start backend.config store = .ok game) (handlings : List Handling) :
    (game.handleAll backend handlings).session.solved.Storable := by
  refine handleAll_preserves (fun game => game.session.solved.Storable) (storable_handle fits)
    handlings ?_
  rw [(opened_start started).session]
  exact Progress.sorted_loadSolved? store backend.config.storage.solvedKey

/--
Starting over is a fresh start.  Whatever has been done to a game, both worlds are planted again
without a fault, nothing goes on in them, and but for the store and for what only counts on, the
game is the one that begins over any store that holds the same solved challenges and no countdown.
Such a store there always is, and if the game's own store accepts the inactive countdown, that is
what is read from it.
-/
theorem reset_eq_fresh_start {backend : Backend} (valid : backend.config.validate = .ok ())
    (store : σ) :
    ∃ game, start backend.config store = .ok game ∧ ∀ handlings,
      let played := game.handleAll backend handlings
      let again := played.reset backend.config
      (World.ground.plant (World.standardPlantings backend.config) = .ok again.standardTree ∧
        World.ground.plant World.deepPlantings = .ok again.deepTree) ∧
      again.Idle ∧
      (∀ {τ : Type} [Store τ] (other : τ),
        Progress.HoldsOnly backend.config.storage played.session.solved other →
          ∃ fresh, start backend.config other = .ok fresh ∧ again.essence = fresh.essence) ∧
      (backend.Fits → ∃ other : MemoryStore,
        Progress.HoldsOnly backend.config.storage played.session.solved other) ∧
      ([FaithfulStore σ] →
        (Progress.saveCountdown played.store backend.config.storage.countdownKey .inactive).1 =
            .ok () →
          Progress.loadCountdown? again.store backend.config.storage.countdownKey =
            some .inactive) := by
  obtain ⟨game, started, -⟩ := exists_start valid store
  refine ⟨game, started, fun handlings => ?_⟩
  refine ⟨World.plant_worlds backend.config, idle_reset _ _, ?_, ?_, ?_⟩
  · intro τ _ other holds
    obtain ⟨fresh, begins, essence⟩ := exists_start_fresh valid holds
    exact ⟨fresh, begins, (essence_reset _ _).trans essence.symm⟩
  · intro fits
    exact Progress.exists_holdsOnly _ (storable_handleAll fits started handlings)
  · intro _ accepted
    exact loadCountdown?_reset accepted

def havoc : List Handling :=
  [.call (.submit "submit FLAG\x7bh1dd3n_1n_pl41n_s1ght\x7d"), .call (.submit "mkdir /tmp/x"),
    .call (.submit "submit x"), .call (.tick 2000)] ++ (wayDown.take 6).map .call

theorem reset_eq_fresh_start_havoc :
    let backend := Terminal.backendOf .default
    backend.config.validate = .ok () ∧
      ∃ game, start backend.config (⟨[]⟩ : MemoryStore) = .ok game ∧
        let played := game.handleAll backend havoc
        (played.session.user = "operator" ∧ played.switching = true ∧
          played.countdown = ⟨true, 298, false⟩ ∧ played.timers.pending.length = 2) ∧
        (∃ fresh,
          start backend.config (⟨[("deepshell.solved", "[1]")]⟩ : MemoryStore) = .ok fresh ∧
            (played.reset backend.config).essence = fresh.essence) ∧
        Progress.loadCountdown? (played.reset backend.config).store "deepshell.countdown" =
          some .inactive := by
  intro backend
  obtain ⟨game, started, fresh⟩ := @reset_eq_fresh_start MemoryStore _ backend rfl ⟨[]⟩
  have computed : (start backend.config (⟨[]⟩ : MemoryStore)).toOption.map (fun game =>
      let played := game.handleAll backend havoc
      (played.session.solved, played.session.user, played.switching, played.countdown,
        played.timers.pending.length)) = some ([1], "operator", true, ⟨true, 298, false⟩, 2) := by
    decide +kernel
  rw [started] at computed
  simp only [Except.toOption, Option.map_some, Option.some.injEq, Prod.mk.injEq] at computed
  obtain ⟨-, -, resembles, -, accepts⟩ := fresh havoc
  have holds : Progress.HoldsOnly backend.config.storage
      (game.handleAll backend havoc).session.solved
      (⟨[("deepshell.solved", "[1]")]⟩ : MemoryStore) := by
    rw [computed.1]
    exact ⟨by decide +kernel, by decide +kernel⟩
  exact ⟨rfl, game, started, computed.2, resembles _ holds, accepts rfl⟩

end Game

end PuzzleShell

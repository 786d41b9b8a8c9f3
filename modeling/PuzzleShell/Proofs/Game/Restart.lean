import PuzzleShell.Proofs.Config
import PuzzleShell.Proofs.Game.Reckoning

/-!
# Starting again

The solved challenges and the countdown are stored whenever they change, so a game that is started
again over the store goes on with the progress of the one that was left, at whatever moment that
was.  What had to be repaired when it was read is not stored at once, but it is repaired in the
same way when it is read again.
-/

namespace PuzzleShell

namespace Progress

variable {σ : Type} [Store σ] {storage : StorageSettings}
  {progress before between after : Progress σ} {solved : Solved} {countdown : Countdown}

def ofStore (storage : StorageSettings) (store : σ) : Progress σ where
  solved := (loadSolved? store storage.solvedKey).getD []
  countdown := ((loadCountdown? store storage.countdownKey).getD .inactive).normalized
  store := store

/-- A game that begins over the store has the same progress. -/
def Kept (storage : StorageSettings) (progress : Progress σ) : Prop :=
  ofStore storage progress.store = progress

theorem kept_ofStore (storage : StorageSettings) (store : σ) :
    (ofStore storage store).Kept storage := rfl

namespace Kept

/-- The solved challenges of kept progress are in order, and they fit into 32 bits. -/
theorem sorted (kept : progress.Kept storage) :
    progress.solved.Pairwise (· < ·) ∧ ∀ id ∈ progress.solved, id < 1 <<< 32 := by
  have read := sorted_loadSolved? progress.store storage.solvedKey
  rw [← kept]
  exact read

/-- The seconds of kept progress fit into 32 bits. -/
theorem seconds (kept : progress.Kept storage) : progress.countdown.timeLeft < 1 <<< 32 := by
  have read := timeLeft_loadCountdown?_lt progress.store storage.countdownKey
  rw [← kept]
  exact Nat.lt_of_le_of_lt (Countdown.timeLeft_normalized_le _) read

theorem proper (kept : progress.Kept storage) : progress.countdown.Proper := by
  rw [← kept]
  exact Countdown.proper_normalized _

variable [LawfulStore σ]

theorem withSolved (kept : progress.Kept storage)
    (different : storage.solvedKey ≠ storage.countdownKey) (sorted : solved.Pairwise (· < ·))
    (fits : ∀ id ∈ solved, id < 1 <<< 32) :
    (progress.withSolved storage solved).Kept storage := by
  have countdown :
      ((loadCountdown? progress.store storage.countdownKey).getD .inactive).normalized =
        progress.countdown := congrArg Progress.countdown kept
  unfold Kept ofStore Progress.withSolved
  dsimp only
  rw [loadSolved?_saveSolved sorted fits, Option.getD_some,
    loadCountdown?_saveSolved different.symm, countdown]

theorem withCountdown (kept : progress.Kept storage)
    (different : storage.solvedKey ≠ storage.countdownKey) (proper : countdown.Proper)
    (fits : countdown.timeLeft < 1 <<< 32) :
    (progress.withCountdown storage countdown).Kept storage := by
  have solved : (loadSolved? progress.store storage.solvedKey).getD [] = progress.solved :=
    congrArg Progress.solved kept
  unfold Kept ofStore Progress.withCountdown
  dsimp only
  rw [loadCountdown?_saveCountdown fits, Option.getD_some, proper.normalized_eq,
    loadSolved?_saveCountdown different, solved]

/-- There is always room for a countdown that nobody has armed. -/
theorem disarm (kept : progress.Kept storage)
    (different : storage.solvedKey ≠ storage.countdownKey) :
    (progress.withCountdown storage .inactive).Kept storage :=
  kept.withCountdown different .inactive timeLeft_inactive_lt

end Kept

/-- Progress that is kept is still kept afterwards, and nothing that was solved is lost. -/
structure Follows (storage : StorageSettings) (before after : Progress σ) : Prop where
  kept : before.Kept storage → after.Kept storage
  solved : before.solved ⊆ after.solved

namespace Follows

theorem refl (progress : Progress σ) : Follows storage progress progress :=
  ⟨id, List.Subset.refl _⟩

theorem trans (first : Follows storage before between) (second : Follows storage between after) :
    Follows storage before after :=
  ⟨second.kept ∘ first.kept, List.Subset.trans first.solved second.solved⟩

end Follows

end Progress

namespace Verdict

variable {verdict : Verdict} {solved : Solved}

theorem subset_enter (verdict : Verdict) (solved : Solved) : solved ⊆ verdict.enter solved := by
  unfold enter
  split
  · exact fun other member => Solved.mem_insert.2 (Or.inr member)
  · exact List.Subset.refl _

theorem sorted_enter (verdict : Verdict) (sorted : solved.Pairwise (· < ·)) :
    (verdict.enter solved).Pairwise (· < ·) := by
  unfold enter
  split
  · exact Solved.sorted_insert _ sorted
  · exact sorted

theorem lt_of_mem_enter {bound : Nat} (known : ∀ id ∈ verdict.id, id < bound)
    (fits : ∀ id ∈ solved, id < bound) : ∀ id ∈ verdict.enter solved, id < bound := by
  unfold enter
  split
  next id _ named =>
    intro other member
    rcases Solved.mem_insert.1 member with rfl | before
    · exact known _ named
    · exact fits other before
  · exact fits

end Verdict

namespace Game

open Progress (Follows)

variable {σ : Type} {config : Config} {game : Game σ}

/-- The challenge that an oracle names has a number that fits. -/
theorem known_of_verdict? {backend : Backend} (fits : backend.Fits) {line : String}
    {verdict : Verdict} (judged : game.verdict? backend line = some verdict) :
    ∀ id ∈ verdict.id, id < 1 <<< 32 := by
  unfold verdict? at judged
  split at judged
  · obtain ⟨flag, -, asked⟩ := Option.bind_eq_some_iff.1 judged
    refine fits.ids flag verdict ?_
    cases answer : backend.flags flag with
    | error fault =>
        rw [answer] at asked
        cases asked
    | ok known =>
        rw [answer] at asked
        obtain rfl := Option.some.inj asked
        rfl
  · cases judged

variable [Store σ]

/-- A game begins with the progress that the store holds. -/
theorem progress_start {store : σ} (started : start config store = .ok game) :
    game.progress = .ofStore config.storage store := by
  have opened := opened_start started
  rw [progress, opened.session, opened.countdown, opened.store, Progress.ofStore]

/-! ## What every way of handling a game does to its progress -/

section Settings

variable [LawfulStore σ] (different : config.storage.solvedKey ≠ config.storage.countdownKey)

include different

theorem follows_fire (game : Game σ) (event : GameEvent) :
    Follows config.storage game.progress (game.fire config event).progress := by
  rw [progress_fire]
  split
  · refine ⟨fun kept => ?_, List.Subset.refl _⟩
    have seconds := Nat.lt_of_le_of_lt game.countdown.timeLeft_tick_le kept.seconds
    exact kept.withCountdown different kept.proper.tick seconds
  · exact .refl _

theorem follows_tick (game : Game σ) (elapsed : Nat) :
    Follows config.storage game.progress (game.tick config elapsed).progress := by
  have step (before after : Game σ) {target : Nat}
      (stepped : before.step? config target = some after)
      (follows : Follows config.storage game.progress before.progress) :
      Follows config.storage game.progress after.progress := by
    obtain ⟨entry, timers, -, rfl⟩ := step?_eq_some_iff.1 stepped
    exact follows.trans (follows_fire different { before with timers := timers } entry.event)
  exact runDue_preserves (fun after : Game σ => Follows config.storage game.progress after.progress)
    (fun before after stepped => step before after stepped) (.refl _)

theorem follows_reset (game : Game σ) :
    Follows config.storage game.progress (game.reset config).progress := by
  rw [progress_reset]
  exact ⟨fun kept => kept.disarm different, List.Subset.refl _⟩

/-- A rejected flag changes the countdown alone. -/
theorem follows_rejectFlag (fits : config.countdown.initialSecs < 1 <<< 32) (game : Game σ) :
    Follows config.storage game.progress (game.rejectFlag config).progress := by
  rw [progress_rejectFlag]
  refine ⟨fun kept => ?_, List.Subset.refl _⟩
  have seconds := Countdown.timeLeft_judged_lt kept.seconds fits (.flagChecked false none)
  exact kept.withCountdown different (kept.proper.wrongFlag config.countdown) seconds

/-- An accepted flag stores what has been entered, whatever was stored as solved before. -/
theorem follows_acceptFlag {before : Progress σ} {verdict : Verdict}
    (entered : game.progress = { before with solved := verdict.enter before.solved })
    (known : ∀ id ∈ verdict.id, id < 1 <<< 32) :
    Follows config.storage before (game.acceptFlag config verdict.id).progress := by
  have solved : game.session.solved = verdict.enter before.solved :=
    congrArg Progress.solved entered
  have stored : before.Kept config.storage →
      (before.withSolved config.storage (verdict.enter before.solved)).Kept config.storage := by
    intro kept
    obtain ⟨sorted, fits⟩ := kept.sorted
    have bounded := Verdict.lt_of_mem_enter known fits
    exact kept.withSolved different (verdict.sorted_enter sorted) bounded
  have grown := verdict.subset_enter before.solved
  have same : game.progress.withSolved config.storage (verdict.enter before.solved) =
      before.withSolved config.storage (verdict.enter before.solved) := by
    rw [entered, Progress.withSolved, Progress.withSolved]
  rw [progress_acceptFlag, solved, same]
  split
  · exact ⟨fun kept => (stored kept).disarm different, grown⟩
  · exact ⟨stored, grown⟩

end Settings

section Backend

variable [LawfulStore σ] {backend : Backend}
  (different : backend.config.storage.solvedKey ≠ backend.config.storage.countdownKey)
  (fits : backend.Fits)

include different fits

theorem follows_submit (game : Game σ) (line : String) :
    Follows backend.config.storage game.progress (game.submit backend line).game.progress := by
  by_cases enabled : game.inputEnabled = true
  · have recorded := recorded_typed backend line enabled
    obtain ⟨shown, processed⟩ := submit_game_eq backend line enabled
    rw [processed, progress_checkStreak]
    have worked := progress_worked game shown (game.typed backend line).2
    cases judged : game.verdict? backend line with
    | none =>
        obtain ⟨unjudged, solved⟩ := recorded.unjudged judged
        rw [progress_applyOutput_of_unjudged _ _ unjudged, worked, solved]
        exact .refl _
    | some verdict =>
        obtain ⟨answered, solved⟩ := recorded.judged verdict judged
        rw [solved] at worked
        rw [answered]
        cases accepted : verdict.accepted with
        | true => exact follows_acceptFlag different worked (known_of_verdict? fits judged)
        | false =>
            have same : verdict.enter game.turn.session.solved = game.session.solved := by
              rw [Verdict.enter, accepted]
              rfl
            rw [same] at worked
            have rejected := follows_rejectFlag different fits.initialSecs
              (game.worked shown (game.typed backend line).2)
            rw [worked] at rejected
            exact rejected
  · rw [submit_of_not_inputEnabled (Bool.not_eq_true _ ▸ enabled)]
    exact .refl _

theorem follows_handle (game : Game σ) (handling : Handling) :
    Follows backend.config.storage game.progress (game.handle backend handling).progress := by
  cases handling with
  | call call =>
      cases call with
      | submit line => exact follows_submit different fits game line
      | tick elapsed => exact follows_tick different game elapsed
      | reset => exact follows_reset different game
  | shutdown => exact .refl _

theorem follows_handleAll (handlings : List Handling) (game : Game σ) :
    Follows backend.config.storage game.progress (game.handleAll backend handlings).progress :=
  handleAll_preserves (fun after => Follows backend.config.storage game.progress after.progress)
    (fun after handling follows => follows.trans (follows_handle different fits after handling))
    handlings (.refl _)

end Backend

/--
Whatever is done to a game, over whatever store it was begun, another game that begins over the
store that it leaves has the same progress.  What has been solved stays solved, and the parts of
the countdown fit together.
-/
theorem progress_start_of_handleAll [LawfulStore σ] {backend : Backend}
    (valid : backend.config.validate = .ok ()) (fits : backend.Fits)
    (different : backend.config.storage.solvedKey ≠ backend.config.storage.countdownKey)
    (store : σ) :
    ∃ game, start backend.config store = .ok game ∧ ∀ handlings further,
      let left := game.handleAll backend handlings
      (∃ again, start backend.config left.store = .ok again ∧
        again.session.solved = left.session.solved ∧ again.countdown = left.countdown) ∧
      left.session.solved ⊆ (left.handleAll backend further).session.solved ∧
      (left.countdown.exploded = true →
        left.countdown.active = true ∧ left.countdown.timeLeft = 0) ∧
      (left.countdown.active = false →
        left.countdown.timeLeft = 0 ∧ left.countdown.exploded = false) ∧
      (left.countdown.isRunning = true → 0 < left.countdown.timeLeft) := by
  obtain ⟨game, started, -⟩ := exists_start valid store
  refine ⟨game, started, fun handlings further => ?_⟩
  intro left
  have begun : game.progress.Kept backend.config.storage := by
    rw [progress_start started]
    exact Progress.kept_ofStore _ _
  have kept : left.progress.Kept backend.config.storage :=
    (follows_handleAll different fits handlings game).kept begun
  obtain ⟨again, reopened, -⟩ := exists_start valid left.store
  have same : again.progress = left.progress := (progress_start reopened).trans kept
  refine ⟨⟨again, reopened, congrArg Progress.solved same, congrArg Progress.countdown same⟩, ?_,
    Countdown.proper_iff.1 kept.proper⟩
  exact (follows_handleAll different fits further left).solved

/-- A store that somebody has written to: identifiers out of order, and seconds of no countdown. -/
def tampered : MemoryStore where
  entries :=
    [("deepshell.countdown", "\x7b\"active\":false,\"time_left\":7,\"exploded\":false\x7d"),
     ("deepshell.solved", "[3, 2, 3]")]

def setback : List Handling :=
  [.call (.submit "submit x"), .call (.tick 2000)]

def success : List Handling :=
  [.call (.submit "submit FLAG\x7bh1dd3n_1n_pl41n_s1ght\x7d"), .shutdown]

/-- The countdown that runs is found again, and so are the challenge solved later and its end. -/
theorem progress_start_of_handleAll_tampered :
    let backend := Terminal.backendOf .default
    backend.config.validate = .ok () ∧ backend.Fits ∧
      backend.config.storage.solvedKey ≠ backend.config.storage.countdownKey ∧
      ∃ game, start backend.config tampered = .ok game ∧
        (∃ again, start backend.config (game.handleAll backend setback).store = .ok again ∧
          again.session.solved = [2, 3] ∧ again.countdown = ⟨true, 298, false⟩) ∧
        ∃ again,
          start backend.config (game.handleAll backend (setback ++ success)).store = .ok again ∧
            again.session.solved = [1, 2, 3] ∧ again.countdown = .inactive := by
  intro backend
  have fits : backend.Fits := Terminal.fits_backendOf Config.fits_default
  have different : backend.config.storage.solvedKey ≠ backend.config.storage.countdownKey := by
    decide
  obtain ⟨game, started, kept⟩ :=
    @progress_start_of_handleAll MemoryStore _ _ backend rfl fits different tampered
  have computed : (start backend.config tampered).toOption.map (fun game =>
      let left := game.handleAll backend setback
      let ended := game.handleAll backend (setback ++ success)
      (left.session.solved, left.countdown, ended.session.solved, ended.countdown)) =
      some ([2, 3], ⟨true, 298, false⟩, [1, 2, 3], .inactive) := by
    decide +kernel
  rw [started] at computed
  simp only [Except.toOption, Option.map_some, Option.some.injEq, Prod.mk.injEq] at computed
  obtain ⟨solved, countdown, allSolved, disarmed⟩ := computed
  obtain ⟨⟨again, reopened, sameSolved, sameCountdown⟩, -⟩ := kept setback []
  obtain ⟨⟨last, reopenedLast, lastSolved, lastCountdown⟩, -⟩ := kept (setback ++ success) []
  exact ⟨rfl, fits, different, game, started,
    ⟨again, reopened, sameSolved.trans solved, sameCountdown.trans countdown⟩,
    ⟨last, reopenedLast, lastSolved.trans allSolved, lastCountdown.trans disarmed⟩⟩

end Game

end PuzzleShell

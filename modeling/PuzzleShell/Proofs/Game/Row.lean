import PuzzleShell.Proofs.Command.Reading
import PuzzleShell.Proofs.Game.Settling

/-!
# A row of unknown commands

The terminal fails exactly at the line that makes a row of unknown commands long enough.  The row is
counted here from what is done to a game: a command that is known breaks it, and so do the beginning
of the recovery and starting over, while lines that are no command leave it alone.  While the
terminal is normal, the count that the session keeps is the length of that row.
-/

namespace PuzzleShell

def Reading.rowAfter (row : Nat) : Reading → Nat
  | .unknown => row + 1
  | .known => 0
  | .consumed | .unreadable | .blank => row

/-- The count agrees with the length of the row as long as it fits. -/
theorem Reading.streakAfter_eq_rowAfter {row : Nat} (fits : row + 1 < 1 <<< 32)
    (reading : Reading) : reading.streakAfter row = reading.rowAfter row := by
  cases reading with
  | unknown => exact Session.nextCount_of_lt fits
  | known | consumed | unreadable | blank => rfl

/-- Only an unknown command makes a row longer. -/
theorem Reading.rowAfter_le_iff {row most : Nat} (below : row < most) (reading : Reading) :
    most ≤ reading.rowAfter row ↔ reading = .unknown ∧ row + 1 = most := by
  cases reading <;> simp [rowAfter] <;> omega

namespace Game

variable {σ : Type} {config : Config} {game next : Game σ} {length target : Nat}

def reading (game : Game σ) (line : String) : Reading :=
  (Registry.ofLayer game.session.layer).reading game.tool line

/-- The count that the session keeps is the length of the row, unless the terminal is down. -/
structure Counts (config : Config) (length : Nat) (game : Game σ) : Prop where
  normal : game.collapse.phase = .normal →
    game.session.unknownStreak = length ∧ length < config.collapse.threshold
  recovering : game.collapse.phase = .recovering →
    game.session.unknownStreak = 0 ∧ length = 0

/-- A terminal that begins to recover has no row, and so has one that has just recovered. -/
theorem counts_of_zero (positive : 0 < config.collapse.threshold)
    (none : game.session.unknownStreak = 0) : game.Counts config 0 :=
  ⟨fun _ => ⟨none, positive⟩, fun _ => ⟨none, rfl⟩⟩

theorem session_worked (game : Game σ) (shown : Transcript) (turn : Turn) :
    (game.worked shown turn).session = turn.session := by
  unfold worked withTree
  split <;> rfl

/-- A normal terminal fails if the row is long enough; nothing else happens to the phase. -/
theorem phase_checkStreak (config : Config) (game : Game σ) :
    (game.checkStreak config).collapse.phase =
      if game.collapse.phase = .normal ∧ config.collapse.threshold ≤ game.session.unknownStreak then
        .systemFailure
      else game.collapse.phase := by
  unfold checkStreak Collapse.triggers
  by_cases normal : game.collapse.phase = .normal
  · simp only [normal, decide_true, Bool.true_and, decide_eq_true_eq, true_and, Collapse.fire,
      Phase.next?]
    split
    · exact phase_enterPhase config _ _
    · exact normal
  · simp [normal]

def beginsRecovery (game next : Game σ) : Bool :=
  game.collapse.phase ≠ .recovering && next.collapse.phase = .recovering

variable [Store σ]

/-- Whether the terminal begins to recover while timers fire up to a time. -/
def recovers (config : Config) (target : Nat) (game : Game σ) : Bool :=
  match _stepped : game.step? config target with
  | none => false
  | some next => game.beginsRecovery next || next.recovers config target
termination_by game.workLeft
decreasing_by exact workLeft_step?_lt _stepped

def rowAfter (backend : Backend) (game : Game σ) (length : Nat) : Call → Nat
  | .submit line => if game.inputEnabled then (game.reading line).rowAfter length else length
  | .tick elapsed =>
      if game.recovers backend.config (later game.timers.now elapsed) then 0 else length
  | .reset => 0

/-- The length of the row of unknown commands after calls, where it was `length` before. -/
def row (backend : Backend) (length : Nat) (game : Game σ) : List Call → Nat
  | [] => length
  | call :: rest =>
      (game.call backend call).row backend (game.rowAfter backend length call) rest

/-- What a timer does to the phase and to the count. -/
theorem fire_cases (config : Config) (game : Game σ) (event : GameEvent) :
    ((game.fire config event).collapse.phase = game.collapse.phase ∧
        (game.fire config event).session.unknownStreak = game.session.unknownStreak) ∨
      ∃ phase, game.collapse.phase.next? .holdElapsed = some phase ∧
        (game.fire config event).collapse.phase = phase ∧
        (game.fire config event).session.unknownStreak =
          if phase = .recovering then 0 else game.session.unknownStreak := by
  cases event with
  | phaseOver =>
      cases elapsed : game.collapse.phase.next? .holdElapsed with
      | none =>
          left
          simp only [fire, Collapse.takeTimer, Collapse.fire, elapsed]
          trivial
      | some phase =>
          refine Or.inr ⟨phase, rfl, ?_⟩
          rw [fire_phaseOver elapsed]
          refine ⟨phase_enterPhase config _ phase, ?_⟩
          rw [session_enterPhase]
          split <;> rfl
  | second =>
      have counted := (sets_fire_second config .normal game).session
      rw [collapse_fire_second, counted]
      exact Or.inl ⟨rfl, rfl⟩
  | enterDeep =>
      refine Or.inl ⟨rfl, ?_⟩
      simp only [fire, say, Session.enterDeep]
      split <;> rfl
  | leaveDeep =>
      refine Or.inl ⟨rfl, ?_⟩
      simp only [fire, say, Session.leaveDeep]
      split <;> rfl

/-- A timer that falls due ends the row only when the recovery begins. -/
theorem Counts.step? (counts : game.Counts config length)
    (positive : 0 < config.collapse.threshold) (stepped : game.step? config target = some next) :
    next.Counts config
      (if game.beginsRecovery next then 0 else length) := by
  obtain ⟨entry, timers, -, rfl⟩ := step?_eq_some_iff.1 stepped
  have fired := fire_cases config { game with timers := timers } entry.event
  generalize ({ game with timers := timers } : Game σ).fire config entry.event = next at fired ⊢
  dsimp only at fired
  unfold beginsRecovery
  rcases fired with ⟨phase, streak⟩ | ⟨phase, elapsed, entered, streak⟩
  · rw [phase, if_neg (by simp)]
    exact ⟨fun normal => streak ▸ counts.normal (phase ▸ normal),
      fun recovering => streak ▸ counts.recovering (phase ▸ recovering)⟩
  · cases before : game.collapse.phase with
    | normal =>
        rw [before] at elapsed
        cases elapsed
    | systemFailure =>
        rw [before] at elapsed
        cases elapsed
        constructor <;> rw [entered] <;> rintro ⟨⟩
    | shattering =>
        rw [before] at elapsed
        cases elapsed
        rw [entered]
        exact counts_of_zero positive streak
    | recovering =>
        obtain ⟨none, rfl⟩ := counts.recovering before
        rw [before] at elapsed
        cases elapsed
        rw [ite_self]
        exact counts_of_zero positive (streak.trans none)

theorem recovers_of_eq_none (finished : game.step? config target = none) :
    game.recovers config target = false := by
  rw [recovers]
  split
  · rfl
  next stepped =>
    rw [finished] at stepped
    cases stepped

theorem recovers_of_eq_some (stepped : game.step? config target = some next) :
    game.recovers config target = (game.beginsRecovery next || next.recovers config target) := by
  rw [recovers]
  split
  next finished =>
    rw [stepped] at finished
    cases finished
  next other again =>
    rw [stepped] at again
    cases again
    rfl

theorem Counts.runDue (counts : game.Counts config length)
    (positive : 0 < config.collapse.threshold) :
    (game.runDue config target).Counts config
      (if game.recovers config target then 0 else length) := by
  fun_induction Game.runDue config target game generalizing length with
  | case1 game finished =>
      rw [recovers_of_eq_none finished]
      exact counts
  | case2 game next stepped ih =>
      have fired := ih (counts.step? positive stepped)
      rw [recovers_of_eq_some stepped]
      cases begins : game.beginsRecovery next with
      | false =>
          rw [begins] at fired
          exact fired
      | true =>
          rw [begins, if_pos rfl, ite_self] at fired
          exact fired

/-- What a line does to the phase and to the count is told by how it is taken. -/
theorem submit_cases (backend : Backend) (line : String) (enabled : game.inputEnabled = true) :
    (game.submit backend line).game.session.unknownStreak =
        (game.reading line).streakAfter game.session.unknownStreak ∧
      (game.submit backend line).game.collapse.phase =
        if game.collapse.phase = .normal ∧ backend.config.collapse.threshold ≤
            (game.reading line).streakAfter game.session.unknownStreak then .systemFailure
        else game.collapse.phase := by
  obtain ⟨shown, processed⟩ := submit_game_eq backend line enabled
  have recorded : (game.typed backend line).2.session.unknownStreak =
      (game.reading line).streakAfter game.session.unknownStreak :=
    (Registry.recorded_submit game.session.layer backend line game.turn).streak
  have applied := (sets_applyOutput backend.config .normal
    (game.worked shown (game.typed backend line).2) (game.typed backend line).1).session
  rw [session_worked] at applied
  rw [processed]
  constructor
  · rw [(sets_checkStreak backend.config _).session, applied, recorded]
  · rw [phase_checkStreak, applied, recorded, collapse_applyOutput, collapse_worked]

/-- A terminal that is normal fails exactly when the row gets long enough. -/
theorem Counts.submit_iff {backend : Backend} (line : String)
    (counts : game.Counts backend.config length)
    (small : backend.config.collapse.threshold < 1 <<< 32)
    (normal : game.collapse.phase = .normal) (enabled : game.inputEnabled = true) :
    (game.submit backend line).game.session.unknownStreak = (game.reading line).rowAfter length ∧
      (game.submit backend line).game.collapse.phase =
        if game.reading line = .unknown ∧ length + 1 = backend.config.collapse.threshold then
          .systemFailure
        else .normal := by
  obtain ⟨streak, phase⟩ := submit_cases backend line enabled
  obtain ⟨same, below⟩ := counts.normal normal
  rw [same, Reading.streakAfter_eq_rowAfter (by omega)] at streak phase
  refine ⟨streak, ?_⟩
  simp only [phase, normal, true_and, Reading.rowAfter_le_iff below]

/-- The count follows what the player types. -/
theorem Counts.submit {backend : Backend} (line : String)
    (counts : game.Counts backend.config length)
    (small : backend.config.collapse.threshold < 1 <<< 32) :
    (game.submit backend line).game.Counts backend.config
      (game.rowAfter backend length (.submit line)) := by
  by_cases enabled : game.inputEnabled = true
  · have row : game.rowAfter backend length (.submit line) = (game.reading line).rowAfter length :=
      if_pos enabled
    rw [row]
    by_cases normal : game.collapse.phase = .normal
    · obtain ⟨streak, phase⟩ := counts.submit_iff line small normal enabled
      have below := (counts.normal normal).2
      constructor <;> intro after <;> rw [phase] at after
      · split at after
        · cases after
        next short =>
          rw [← Reading.rowAfter_le_iff below, Nat.not_le] at short
          exact ⟨streak, short⟩
      · split at after <;> cases after
    · have phase := (submit_cases backend line enabled).2
      rw [if_neg fun fails => normal fails.1] at phase
      constructor <;> intro after <;> rw [phase] at after
      · exact absurd after normal
      · -- A terminal that recovers does not listen.
        simp [inputEnabled, after, Phase.acceptsInput] at enabled
  · rw [submit_of_not_inputEnabled (Bool.not_eq_true _ ▸ enabled), rowAfter, if_neg enabled]
    exact counts

theorem Counts.call {backend : Backend} (call : Call)
    (counts : game.Counts backend.config length)
    (valid : backend.config.validate = .ok ())
    (small : backend.config.collapse.threshold < 1 <<< 32) :
    (game.call backend call).Counts backend.config (game.rowAfter backend length call) := by
  have positive := (Config.validate_eq_ok_iff.1 valid).2
  cases call with
  | submit line => exact counts.submit line small
  | tick elapsed =>
      have ran := @Counts.runDue σ backend.config game length (later game.timers.now elapsed) _
        counts positive
      exact ⟨ran.normal, ran.recovering⟩
  | reset => exact counts_of_zero positive rfl

theorem Counts.play {backend : Backend} (calls : List Call)
    (counts : game.Counts backend.config length)
    (valid : backend.config.validate = .ok ())
    (small : backend.config.collapse.threshold < 1 <<< 32) :
    (game.play backend calls).Counts backend.config (game.row backend length calls) := by
  induction calls generalizing game length with
  | nil => exact counts
  | cons call rest ih => exact ih (counts.call call valid small)

/-- Time takes no normal terminal down. -/
theorem normal_runDue (config : Config) (target : Nat) (normal : game.collapse.phase = .normal) :
    (game.runDue config target).collapse.phase = .normal := by
  refine runDue_preserves (fun game : Game σ => game.collapse.phase = .normal) ?_ normal
  intro game next stepped normal
  obtain ⟨entry, timers, -, rfl⟩ := step?_eq_some_iff.1 stepped
  rcases fire_cases config { game with timers := timers } entry.event with
    ⟨phase, -⟩ | ⟨phase, elapsed, -, -⟩
  · exact phase.trans normal
  · dsimp only at elapsed
    rw [normal] at elapsed
    cases elapsed

/-- A normal terminal is taken down only by the line that makes the row long enough. -/
theorem Counts.call_eq_systemFailure_iff {backend : Backend} (call : Call)
    (counts : game.Counts backend.config length)
    (small : backend.config.collapse.threshold < 1 <<< 32) :
    (game.collapse.phase = .normal ∧
        (game.call backend call).collapse.phase = .systemFailure) ↔
      ∃ line, call = .submit line ∧ game.inputEnabled = true ∧ game.collapse.phase = .normal ∧
        game.reading line = .unknown ∧ length + 1 = backend.config.collapse.threshold := by
  constructor
  · rintro ⟨normal, fails⟩
    cases call with
    | submit line =>
        rw [Game.call] at fails
        by_cases enabled : game.inputEnabled = true
        · rw [(counts.submit_iff line small normal enabled).2] at fails
          split at fails
          next long => exact ⟨line, rfl, enabled, normal, long⟩
          · cases fails
        · rw [submit_of_not_inputEnabled (Bool.not_eq_true _ ▸ enabled), normal] at fails
          cases fails
    | tick elapsed =>
        have still := normal_runDue backend.config (later game.timers.now elapsed) normal
        have same : (game.runDue backend.config (later game.timers.now elapsed)).collapse.phase =
            .systemFailure := fails
        rw [still] at same
        cases same
    | reset =>
        have begun := (begun_reset backend.config game).phase
        rw [Game.call, begun] at fails
        cases fails
  · rintro ⟨line, rfl, enabled, normal, long⟩
    refine ⟨normal, ?_⟩
    rw [Game.call, (counts.submit_iff line small normal enabled).2, if_pos long]

/--
The terminal fails exactly at the threshold.  Whatever is done to a game, a normal terminal fails
with the line that names the last of as many unknown commands in a row as the threshold says, and
with nothing else.  As long as it is normal, there are fewer of them.
-/
theorem fails_iff_row_eq_threshold {backend : Backend} (valid : backend.config.validate = .ok ())
    (small : backend.config.collapse.threshold < 1 <<< 32) (store : σ) :
    ∃ game, start backend.config store = .ok game ∧ ∀ calls,
      let played := game.play backend calls
      (∀ call, (played.collapse.phase = .normal ∧
            (played.call backend call).collapse.phase = .systemFailure) ↔
          ∃ line, call = .submit line ∧ played.inputEnabled = true ∧
            played.collapse.phase = .normal ∧ played.reading line = .unknown ∧
            game.row backend 0 calls + 1 = backend.config.collapse.threshold) ∧
        (played.collapse.phase = .normal →
          played.session.unknownStreak < backend.config.collapse.threshold) := by
  obtain ⟨game, started, -⟩ := exists_start valid store
  have fresh : game.session.unknownStreak = 0 := by
    rw [(opened_start started).session]
    rfl
  have begins := counts_of_zero (Config.validate_eq_ok_iff.1 valid).2 fresh
  refine ⟨game, started, fun calls => ?_⟩
  have counts := begins.play calls valid small
  refine ⟨fun call => counts.call_eq_systemFailure_iff call small, fun normal => ?_⟩
  obtain ⟨same, below⟩ := counts.normal normal
  rw [same]
  exact below

/--
Four unknown commands in a row, with lines in between that are no commands.  The row before them is
broken by a command, whose tool takes the line after it.
-/
def mumbling : List Call :=
  [.submit "x", .submit "x", .submit "login operator", .submit "x", .submit "x", .submit "",
    .submit "x", .tick 1000, .submit "echo \"", .submit "x", .submit "x"]

theorem fails_iff_row_eq_threshold_mumbling :
    standardBackend.config.validate = .ok () ∧
      standardBackend.config.collapse.threshold < 1 <<< 32 ∧
      ∃ game, start standardBackend.config (⟨[]⟩ : MemoryStore) = .ok game ∧
        game.row standardBackend 0 mumbling = 4 ∧
        ((game.play standardBackend mumbling).call standardBackend
          (.submit "x")).collapse.phase = .systemFailure ∧
        (game.play standardBackend mumbling).session.unknownStreak < 5 := by
  obtain ⟨game, started, fails⟩ :=
    @fails_iff_row_eq_threshold MemoryStore _ standardBackend rfl (by decide) ⟨[]⟩
  have computed : (start standardBackend.config (⟨[]⟩ : MemoryStore)).toOption.map (fun game =>
      (game.row standardBackend 0 mumbling, (game.play standardBackend mumbling).inputEnabled,
        (game.play standardBackend mumbling).collapse.phase,
        (game.play standardBackend mumbling).reading "x")) =
        some (4, true, .normal, .unknown) := by
    decide +kernel
  rw [started] at computed
  simp only [Except.toOption, Option.map_some, Option.some.injEq, Prod.mk.injEq] at computed
  obtain ⟨four, enabled, normal, unknown⟩ := computed
  obtain ⟨exactly, below⟩ := fails mumbling
  refine ⟨rfl, by decide, game, started, four, ?_, below normal⟩
  exact ((exactly (.submit "x")).2 ⟨"x", rfl, enabled, normal, unknown, by rw [four]; rfl⟩).2

end Game

end PuzzleShell

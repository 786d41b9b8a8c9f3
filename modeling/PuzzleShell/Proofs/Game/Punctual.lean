import PuzzleShell.Proofs.Game.Tidy

/-!
# Nothing is due too late

Whatever is pending in a game has been set for the delay that its event has, and it has not been
waiting for longer than that.  A line that is typed sets its timers from now on, and a timer that
falls due is the first one, so it leaves the others on time.
-/

namespace PuzzleShell

theorem Pending.SetAt.due_eq {config : Config} {phase : Phase} {now : Nat} {kind : GameEvent}
    {entry : Pending GameEvent} (set : entry.SetAt config phase now kind) :
    entry.due = later now (entry.event.delay config phase) := by
  rw [set.event]
  exact set.due

namespace Game

variable {σ : Type} {config : Config} {game next after : Game σ} {target : Nat}

/-- Nothing that is pending is overdue, or due later than its event's delay from now. -/
structure Punctual (config : Config) (game : Game σ) : Prop where
  clock : game.timers.now ≤ latest
  notOverdue : ∀ entry ∈ game.timers.pending, game.timers.now ≤ entry.due
  inTime : ∀ entry ∈ game.timers.pending,
    entry.due ≤ later game.timers.now (entry.event.delay config game.collapse.phase)

namespace Punctual

theorem due_le_latest (punctual : game.Punctual config) {entry : Pending GameEvent}
    (member : entry ∈ game.timers.pending) : entry.due ≤ latest :=
  Nat.le_trans (punctual.inTime entry member) (later_le_latest _ _)

/-- What is set now is due in time. -/
theorem sets (punctual : game.Punctual config) {Fresh : Pending GameEvent → Prop}
    (sets : Sets Fresh game after) (same : after.collapse.phase = game.collapse.phase)
    (fresh : ∀ entry, Fresh entry →
      entry.due = later game.timers.now (entry.event.delay config game.collapse.phase)) :
    after.Punctual config := by
  constructor
  · rw [sets.now]
    exact punctual.clock
  · intro entry member
    rw [sets.now]
    rcases sets.pending entry member with before | new
    · exact punctual.notOverdue entry before
    · rw [fresh entry new]
      exact le_later punctual.clock _
  · intro entry member
    rw [sets.now, same]
    rcases sets.pending entry member with before | new
    · exact punctual.inTime entry before
    · exact Nat.le_of_eq (fresh entry new)

/-- Where no end of a phase is pending, the phase may be any other. -/
theorem withPhase (punctual : game.Punctual config)
    (none : ∀ entry ∈ game.timers.pending, entry.event ≠ .phaseOver) (collapse : Collapse) :
    Punctual config { game with collapse := collapse } := by
  refine ⟨punctual.clock, punctual.notOverdue, ?_⟩
  intro entry member
  have inTime := punctual.inTime entry member
  have lasting := none entry member
  revert inTime
  generalize entry.event = event at lasting ⊢
  cases event with
  | phaseOver => exact absurd rfl lasting
  | second | enterDeep | leaveDeep => exact id

/-- It does not matter who the player is. -/
theorem withSession (punctual : game.Punctual config) {session : Session} :
    Punctual config { game with session := session } :=
  ⟨punctual.clock, punctual.notOverdue, punctual.inTime⟩

/-- The clock moves to the time of what falls due first, which makes nothing else overdue. -/
theorem pop? (punctual : game.Punctual config) (wellFormed : game.timers.WellFormed)
    {entry : Pending GameEvent} {timers : Timers GameEvent}
    (popped : game.timers.pop? target = some (entry, timers)) :
    Punctual config { game with timers := timers } ∧ timers.now = entry.due := by
  obtain ⟨member, -, pending⟩ := Timers.pop?_eq_some wellFormed popped
  obtain ⟨-, moved⟩ := Timers.now_of_pop? popped
  rw [Nat.max_eq_right (punctual.notOverdue entry member)] at moved
  have left : ∀ other ∈ timers.pending, other ∈ game.timers.pending := by
    intro other still
    rw [pending] at still
    exact (List.mem_filter.1 still).1
  refine ⟨⟨?_, ?_, ?_⟩, moved⟩
  · rw [moved]
    exact punctual.due_le_latest member
  · intro other still
    rw [moved]
    exact Timers.due_le_of_pop? popped (left other still)
  · intro other still
    have inTime := punctual.inTime other (left other still)
    have onwards := later_le_later (punctual.notOverdue entry member)
      (other.event.delay config game.collapse.phase)
    rw [← moved] at onwards
    exact Nat.le_trans inTime onwards

end Punctual

theorem due_eq_of_answerSets {phase : Phase} {timers : Timers GameEvent} {output : Output}
    {entry : Pending GameEvent} (set : AnswerSets config phase timers output entry) :
    entry.due = later timers.now (entry.event.delay config phase) := by
  cases set with
  | second setAt => exact setAt.due_eq
  | switch asked => rfl

/-- No answer ends a phase. -/
theorem event_ne_of_answerSets {phase : Phase} {timers : Timers GameEvent} {output : Output}
    {entry : Pending GameEvent} (set : AnswerSets config phase timers output entry) :
    entry.event ≠ .phaseOver := by
  cases set with
  | second setAt =>
      rw [setAt.event]
      decide
  | switch asked =>
      rintro rfl
      cases output <;> cases asked

theorem punctual_worked (punctual : game.Punctual config) (shown : Transcript) (turn : Turn) :
    (game.worked shown turn).Punctual config := by
  constructor <;> rw [timers_worked]
  · exact punctual.clock
  · exact punctual.notOverdue
  · rw [collapse_worked]
    exact punctual.inTime

/-- A row of unknown commands only sets off a collapse where no end of a phase is pending. -/
theorem punctual_checkStreak (punctual : game.Punctual config)
    (free : game.collapse.phase = .normal →
      ∀ entry ∈ game.timers.pending, entry.event ≠ .phaseOver) :
    (game.checkStreak config).Punctual config := by
  rcases checkStreak_cases config game with quiet | ⟨normal, fails⟩
  · rw [quiet]
    exact punctual
  · rw [fails]
    refine (punctual.withPhase (free normal) _).withSession.sets (sets_enterPhase config _ _)
      (phase_enterPhase config _ _) ?_
    exact fun fresh setAt => setAt.due_eq

theorem punctual_of_begun (begun : game.Begun config) (clock : game.timers.now ≤ latest) :
    game.Punctual config := by
  refine ⟨clock, ?_, ?_⟩
  · intro entry member
    rw [(begun.pending entry member).due_eq]
    exact le_later clock _
  · intro entry member
    rw [begun.phase]
    exact Nat.le_of_eq (begun.pending entry member).due_eq

variable [Store σ]

/-- What fires on time leaves everything else on time. -/
theorem Punctual.step? (punctual : game.Punctual config) (tidy : game.machines.Tidy)
    (stepped : game.step? config target = some next) : next.Punctual config := by
  obtain ⟨entry, timers, popped, rfl⟩ := step?_eq_some_iff.1 stepped
  obtain ⟨set, taken⟩ := tidy_pop? tidy popped
  obtain ⟨onTime, -⟩ := punctual.pop? tidy.wellFormed popped
  generalize entry.event = event at set taken ⊢
  cases event with
  | phaseOver =>
      obtain ⟨phase, elapsed⟩ := exists_next?_of_tidy tidy set
      have none := Timers.waiting_eq_nil_iff.1 taken.here
      rw [@fire_phaseOver σ { game with timers := timers } _ _ elapsed]
      refine (onTime.withPhase none ⟨phase, .none⟩).withSession.sets
        (sets_enterPhase config _ phase) (phase_enterPhase config _ phase) ?_
      exact fun fresh setAt => setAt.due_eq
  | second =>
      refine onTime.sets (sets_fire_second config game.collapse.phase _) ?_ ?_
      · rw [collapse_fire_second]
      · exact fun fresh setAt => setAt.due_eq
  | enterDeep | leaveDeep =>
      simp only [fire, say]
      exact ⟨onTime.clock, onTime.notOverdue, onTime.inTime⟩

/-- What every timer preserves, while the timers are tidy and on time, they preserve together. -/
theorem runDue_preserves_onTime {target : Nat} (Holds : Game σ → Prop)
    (step : ∀ game next, game.machines.Tidy → game.Punctual config →
      game.step? config target = some next → Holds game → Holds next)
    (tidy : game.machines.Tidy) (punctual : game.Punctual config) (holds : Holds game) :
    (game.runDue config target).Punctual config ∧ Holds (game.runDue config target) := by
  have ran := runDue_preserves
    (fun game : Game σ => game.machines.Tidy ∧ game.Punctual config ∧ Holds game)
    (fun game next stepped ⟨tidy, punctual, holds⟩ => ⟨tidy_step? tidy stepped,
      punctual.step? tidy stepped, step game next tidy punctual stepped holds⟩)
    ⟨tidy, punctual, holds⟩
  exact ran.2

theorem punctual_runDue (target : Nat) (punctual : game.Punctual config)
    (tidy : game.machines.Tidy) : (game.runDue config target).Punctual config :=
  (runDue_preserves_onTime (fun _ => True) (fun _ _ _ _ _ => id) tidy punctual trivial).1

theorem now_tick (config : Config) (elapsed : Nat) (clock : game.timers.now ≤ latest) :
    (game.tick config elapsed).timers.now = later game.timers.now elapsed := by
  have notAhead := now_runDue_le config (later game.timers.now elapsed) game
  rw [Nat.max_eq_right (le_later clock elapsed)] at notAhead
  exact Nat.max_eq_right notAhead

/-- When all that was due has fired, the clock may be moved on to the time it was due by. -/
theorem punctual_tick (elapsed : Nat) (punctual : game.Punctual config)
    (tidy : game.machines.Tidy) : (game.tick config elapsed).Punctual config := by
  have ran := punctual_runDue (later game.timers.now elapsed) punctual tidy
  have notAhead := now_runDue_le config (later game.timers.now elapsed) game
  have nothing := Timers.pop?_eq_none_iff.1
    (step?_eq_none_iff.1 (step?_runDue config (later game.timers.now elapsed) game))
  have moved := now_tick config elapsed punctual.clock
  rw [Nat.max_eq_right (le_later punctual.clock elapsed)] at notAhead
  constructor
  · rw [moved]
    exact later_le_latest _ _
  · intro entry member
    rw [moved]
    exact Nat.le_of_lt (nothing entry member)
  · intro entry member
    rw [moved]
    exact Nat.le_trans (ran.inTime entry member) (later_le_later notAhead _)

theorem punctual_applyOutput (punctual : game.Punctual config) (output : Output) :
    (game.applyOutput config output).Punctual config := by
  refine punctual.sets (sets_applyOutput config game.collapse.phase game output) ?_ ?_
  · rw [collapse_applyOutput]
  · exact fun entry set => due_eq_of_answerSets set

/-- An answer leaves no end of a phase pending where none was. -/
theorem event_ne_of_applyOutput {output : Output}
    (none : ∀ entry ∈ game.timers.pending, entry.event ≠ .phaseOver) :
    ∀ entry ∈ (game.applyOutput config output).timers.pending, entry.event ≠ .phaseOver := by
  intro entry member
  have sets := sets_applyOutput config game.collapse.phase game output
  rcases sets.pending entry member with before | set
  · exact none entry before
  · exact event_ne_of_answerSets set

theorem punctual_submit {backend : Backend} (line : String)
    (punctual : game.Punctual backend.config) (tidy : game.machines.Tidy) :
    (game.submit backend line).game.Punctual backend.config := by
  by_cases enabled : game.inputEnabled = true
  · obtain ⟨shown, processed⟩ := submit_game_eq backend line enabled
    rw [processed]
    apply punctual_checkStreak
    · exact punctual_applyOutput (punctual_worked punctual shown _) _
    · rw [collapse_applyOutput, collapse_worked]
      intro normal
      apply event_ne_of_applyOutput
      rw [timers_worked]
      exact Timers.waiting_eq_nil_iff.1 (tidy.waiting_phaseOver_of_normal normal)
  · unfold submit
    rw [if_neg enabled]
    exact punctual

theorem punctual_call {backend : Backend} (call : Call)
    (punctual : game.Punctual backend.config) (tidy : game.machines.Tidy) :
    (game.call backend call).Punctual backend.config := by
  cases call with
  | submit line => exact punctual_submit line punctual tidy
  | tick elapsed => exact punctual_tick elapsed punctual tidy
  | reset => exact punctual_of_begun (begun_reset backend.config game) punctual.clock

/-- Games that are played with valid settings are disciplined and punctual. -/
theorem exists_start_punctual {backend : Backend} (valid : backend.config.validate = .ok ())
    (store : σ) :
    ∃ game, start backend.config store = .ok game ∧
      ∀ calls, (game.play backend calls).machines.Disciplined ∧
        (game.play backend calls).Punctual backend.config := by
  obtain ⟨game, started, disciplined⟩ := exists_start valid store
  obtain ⟨begun, clock⟩ := begun_start started
  have punctual := punctual_of_begun begun (by rw [clock]; exact Nat.zero_le _)
  refine ⟨game, started, fun calls => ?_⟩
  refine play_preserves
    (fun game : Game σ => game.machines.Disciplined ∧ game.Punctual backend.config)
    (fun game call kept => ?_) calls ⟨disciplined, punctual⟩
  exact ⟨disciplined_call backend game call kept.1, punctual_call call kept.2 kept.1.tidy⟩

theorem punctual_handle {backend : Backend} (handling : Handling)
    (punctual : game.Punctual backend.config) (tidy : game.machines.Tidy) :
    (game.handle backend handling).Punctual backend.config := by
  cases handling with
  | call call => exact punctual_call call punctual tidy
  | shutdown =>
      refine ⟨punctual.clock, ?_, ?_⟩
      · rintro entry ⟨⟩
      · rintro entry ⟨⟩

/-- Games that are handled with valid settings are tidy and punctual. -/
theorem exists_start_tidy {backend : Backend} (valid : backend.config.validate = .ok ())
    (store : σ) :
    ∃ game, start backend.config store = .ok game ∧
      ∀ handlings, (game.handleAll backend handlings).machines.Tidy ∧
        (game.handleAll backend handlings).Punctual backend.config := by
  obtain ⟨game, started, kept⟩ := exists_start_punctual valid store
  obtain ⟨disciplined, punctual⟩ := kept []
  refine ⟨game, started, fun handlings => ?_⟩
  refine handleAll_preserves
    (fun game : Game σ => game.machines.Tidy ∧ game.Punctual backend.config)
    (fun game handling kept => ?_) handlings ⟨disciplined.tidy, punctual⟩
  exact ⟨tidy_handle backend game handling kept.1, punctual_handle handling kept.2 kept.1⟩

end Game

end PuzzleShell

import PuzzleShell.Proofs.Game.Settling
import PuzzleShell.Proofs.Game.Staying

/-!
# The course of a collapse

A cycle that has begun runs by the clock alone.  Each phase ends as long after the beginning of the
cycle as all phases up to it last together, because its end is set when the phase before it is due
to end.  Nothing that is typed meanwhile takes that timer back or sets another one.
-/

namespace PuzzleShell

/-- The phase in which a cycle is some time after it has begun. -/
def CollapseSettings.phaseAfter (settings : CollapseSettings) (elapsed : Nat) : Phase :=
  if elapsed < settings.failureMs then .systemFailure
  else if elapsed < settings.failureMs + settings.shatterMs then .shattering
  else if elapsed < settings.failureMs + settings.shatterMs + settings.recoverMs then .recovering
  else .normal

namespace Phase

variable {settings : CollapseSettings} {phase next : Phase}

def beginMs (settings : CollapseSettings) : Phase → Nat
  | .systemFailure => 0
  | .shattering => settings.failureMs
  | .recovering => settings.failureMs + settings.shatterMs
  | .normal => settings.failureMs + settings.shatterMs + settings.recoverMs

def endMs (settings : CollapseSettings) (phase : Phase) : Nat :=
  phase.beginMs settings + (phase.holdMs? settings).getD 0

theorem endMs_of_lasts {hold : Nat} (lasts : phase.holdMs? settings = some hold) :
    phase.endMs settings = phase.beginMs settings + hold := by
  rw [endMs, lasts, Option.getD_some]

/-- A phase begins when the one before it ends. -/
theorem beginMs_next? (elapsed : phase.next? .holdElapsed = some next) :
    next.beginMs settings = phase.endMs settings := by
  cases phase <;> cases elapsed <;> simp [beginMs, endMs, holdMs?]

theorem exists_holdMs?_of_ne_normal (lasts : phase ≠ .normal) :
    ∃ hold, phase.holdMs? settings = some hold := by
  cases phase with
  | normal => exact absurd rfl lasts
  | systemFailure | shattering | recovering => exact ⟨_, rfl⟩

theorem beginMs_le_endMs (settings : CollapseSettings) (phase : Phase) :
    phase.beginMs settings ≤ phase.endMs settings :=
  Nat.le_add_right _ _

/-- No phase of a cycle ends after the whole of it. -/
theorem endMs_le (settings : CollapseSettings) (phase : Phase) :
    phase.endMs settings ≤ normal.beginMs settings := by
  cases phase <;> simp only [beginMs, endMs, holdMs?, Option.getD] <;> omega

/-- The phases follow one another by the clock. -/
theorem phaseAfter_eq {elapsed : Nat} (begun : phase.beginMs settings ≤ elapsed)
    (lasts : phase ≠ .normal → elapsed < phase.endMs settings) :
    settings.phaseAfter elapsed = phase := by
  unfold CollapseSettings.phaseAfter
  cases phase with
  | normal =>
      simp only [beginMs] at begun
      rw [if_neg (by omega), if_neg (by omega), if_neg (by omega)]
  | systemFailure =>
      have early := lasts (by decide)
      simp only [endMs, beginMs, holdMs?, Option.getD_some, Nat.zero_add] at early
      rw [if_pos early]
  | shattering =>
      have early := lasts (by decide)
      simp only [endMs, beginMs, holdMs?, Option.getD_some] at begun early
      rw [if_neg (by omega), if_pos early]
  | recovering =>
      have early := lasts (by decide)
      simp only [endMs, beginMs, holdMs?, Option.getD_some] at begun early
      rw [if_neg (by omega), if_neg (by omega), if_pos early]

end Phase

namespace Game

variable {σ : Type} {config : Config} {game next : Game σ} {began target : Nat}

/-- The phase fits the time since a cycle began, and its end is pending. -/
structure Cycles (config : Config) (began : Nat) (game : Game σ) : Prop where
  begun : later began (game.collapse.phase.beginMs config.collapse) ≤ game.timers.now
  ends : game.collapse.phase ≠ .normal → ∃ entry ∈ game.timers.pending,
    entry.event = .phaseOver ∧
      entry.due = later began (game.collapse.phase.endMs config.collapse)

theorem collapse_fire_of_ne [Store σ] {event : GameEvent} (other : event ≠ .phaseOver) :
    (game.fire config event).collapse = game.collapse := by
  cases event with
  | phaseOver => exact absurd rfl other
  | second => exact collapse_fire_second config game
  | enterDeep | leaveDeep => rfl

namespace Cycles

/-- What leaves the phase and its end alone may happen at any time of a cycle. -/
theorem of_eq (cycles : game.Cycles config began)
    (phase : next.collapse.phase = game.collapse.phase)
    (forwards : game.timers.now ≤ next.timers.now)
    (stays : ∀ entry ∈ game.timers.pending, entry.event = .phaseOver →
      entry ∈ next.timers.pending) : next.Cycles config began := by
  constructor
  · rw [phase]
    exact Nat.le_trans cycles.begun forwards
  · rw [phase]
    intro lasts
    obtain ⟨entry, member, ends, due⟩ := cycles.ends lasts
    exact ⟨entry, stays entry member ends, ends, due⟩

/-- A phase that is entered on time sets its own end. -/
theorem enterPhase {phase : Phase} (entered : game.collapse.phase = phase)
    (onTime : game.timers.now = later began (phase.beginMs config.collapse)) :
    (game.enterPhase config phase).Cycles config began := by
  constructor
  · rw [phase_enterPhase, entered, now_enterPhase]
    exact Nat.le_of_eq onTime.symm
  · rw [phase_enterPhase, entered]
    intro lasts
    obtain ⟨hold, holds⟩ := @Phase.exists_holdMs?_of_ne_normal config.collapse phase lasts
    obtain ⟨entry, member, ends, due⟩ := exists_pending_enterPhase game holds
    rw [onTime, later_later, ← Phase.endMs_of_lasts holds] at due
    exact ⟨entry, member, ends, due⟩

variable [Store σ]

/-- What falls due carries a cycle on. -/
theorem step? (cycles : game.Cycles config began) (tidy : game.machines.Tidy)
    (punctual : game.Punctual config) (stepped : game.step? config target = some next) :
    next.Cycles config began := by
  obtain ⟨popped, timers, taken, rfl⟩ := step?_eq_some_iff.1 stepped
  obtain ⟨here, -⟩ := Timers.mem_of_pop? taken
  have moved := (punctual.pop? tidy.wellFormed taken).2
  have forwards := punctual.notOverdue popped here
  by_cases phaseOver : popped.event = .phaseOver
  · have set := Timers.mem_waiting_iff.2 ⟨popped, here, phaseOver, rfl⟩
    obtain ⟨phase, elapsed⟩ := exists_next?_of_tidy tidy set
    have lasts : game.collapse.phase ≠ .normal := by
      intro normal
      rw [normal] at elapsed
      cases elapsed
    obtain ⟨entry, member, ends, due⟩ := cycles.ends lasts
    obtain rfl := eq_of_phaseOver tidy member ends here phaseOver
    rw [phaseOver, @fire_phaseOver σ { game with timers := timers } _ _ elapsed]
    refine enterPhase rfl ?_
    rw [Phase.beginMs_next? elapsed, ← due]
    exact moved
  · have kept : Cycles config began { game with timers := timers } := by
      refine cycles.of_eq rfl (moved ▸ forwards) fun entry member ends => ?_
      rcases mem_pending_pop? tidy taken member with rfl | still
      · exact absurd ends phaseOver
      · exact still
    refine kept.of_eq ?_ ?_ fun entry member _ => mem_pending_fire config _ member
    · rw [collapse_fire_of_ne phaseOver]
    · exact Nat.le_of_eq (now_fire config _ _).symm

theorem runDue (cycles : game.Cycles config began) (tidy : game.machines.Tidy)
    (punctual : game.Punctual config) : (game.runDue config target).Cycles config began :=
  (runDue_preserves_onTime (Cycles config began)
    (fun _ _ tidy punctual stepped cycles => cycles.step? tidy punctual stepped) tidy punctual
    cycles).2

theorem tick (elapsed : Nat) (cycles : game.Cycles config began) (tidy : game.machines.Tidy)
    (punctual : game.Punctual config) : (game.tick config elapsed).Cycles config began := by
  refine (cycles.runDue tidy punctual).of_eq rfl ?_ fun entry member _ => member
  exact Nat.le_max_left _ _

/-- A line that begins no other cycle leaves the one that is under way alone. -/
theorem submit {backend : Backend} (line : String) (cycles : game.Cycles backend.config began)
    (tidy : game.machines.Tidy)
    (same : (game.submit backend line).game.collapse.phase = game.collapse.phase) :
    (game.submit backend line).game.Cycles backend.config began := by
  refine cycles.of_eq same (Nat.le_of_eq (now_submit backend game line).symm) ?_
  intro entry member ends
  exact mem_pending_submit backend line tidy member (by rw [ends]; decide)

end Cycles

variable [Store σ]

def strikes (backend : Backend) (game : Game σ) (call : Call) : Bool :=
  game.collapse.phase = .normal && (game.call backend call).collapse.phase = .systemFailure

def strikesWithin (backend : Backend) (game : Game σ) : List Call → Bool
  | [] => false
  | call :: rest => game.strikes backend call || (game.call backend call).strikesWithin backend rest

/-- A line leaves the phase as it is, or it makes a normal terminal fail. -/
theorem submit_or_fails (backend : Backend) (game : Game σ) (line : String) :
    (game.submit backend line).game.collapse.phase = game.collapse.phase ∨
      game.collapse.phase = .normal ∧ ∃ working : Game σ,
        working.collapse.phase = .systemFailure ∧ working.timers.now = game.timers.now ∧
          (game.submit backend line).game = working.enterPhase backend.config .systemFailure := by
  by_cases enabled : game.inputEnabled = true
  · obtain ⟨shown, processed⟩ := submit_game_eq backend line enabled
    generalize answered : (game.worked shown (game.typed backend line).2).applyOutput
      backend.config (game.typed backend line).1 = working at processed
    have same : working.collapse = game.collapse := by
      rw [← answered, collapse_applyOutput, collapse_worked]
    rcases checkStreak_cases backend.config working with quiet | ⟨normal, fails⟩
    · rw [processed, quiet, same]
      exact Or.inl rfl
    · have time := now_submit backend game line
      rw [processed, fails, now_enterPhase] at time
      exact Or.inr ⟨same ▸ normal, _, rfl, time, processed.trans fails⟩
  · rw [submit_of_not_inputEnabled (Bool.not_eq_true _ ▸ enabled)]
    exact Or.inl rfl

theorem strikes_iff {backend : Backend} {call : Call} :
    game.strikes backend call = true ↔
      game.collapse.phase = .normal ∧
        (game.call backend call).collapse.phase = .systemFailure := by
  simp only [strikes, Bool.and_eq_true, decide_eq_true_eq]

/-- A line that begins no cycle leaves the phase as it is. -/
theorem phase_submit_of_not_strikes {backend : Backend} {line : String}
    (quiet : game.strikes backend (.submit line) = false) :
    (game.submit backend line).game.collapse.phase = game.collapse.phase := by
  rcases submit_or_fails backend game line with same | ⟨normal, working, failed, -, fails⟩
  · exact same
  · have struck : game.strikes backend (.submit line) = true := by
      refine strikes_iff.2 ⟨normal, ?_⟩
      rw [call, fails, phase_enterPhase, failed]
    rw [quiet] at struck
    cases struck

/-- A cycle begins with the end of its first phase pending. -/
theorem cycles_of_strikes {backend : Backend} {line : String} (clock : game.timers.now ≤ latest)
    (struck : game.strikes backend (.submit line) = true) :
    (game.submit backend line).game.Cycles backend.config game.timers.now := by
  obtain ⟨normal, failed⟩ := strikes_iff.1 struck
  rw [call] at failed
  rcases submit_or_fails backend game line with same | ⟨-, working, entered, time, fails⟩
  · rw [failed, normal] at same
    cases same
  · rw [fails]
    refine Cycles.enterPhase entered (time.trans ?_)
    simp only [Phase.beginMs, later]
    omega

/-- As long as nobody starts over and no other cycle begins, a cycle takes its course. -/
theorem Cycles.play {backend : Backend} {calls : List Call} (goesOn : Call.reset ∉ calls)
    (single : game.strikesWithin backend calls = false)
    (cycles : game.Cycles backend.config began) (tidy : game.machines.Tidy)
    (punctual : game.Punctual backend.config) :
    (game.play backend calls).Cycles backend.config began ∧
      (game.play backend calls).machines.Tidy ∧
      (game.play backend calls).Punctual backend.config := by
  induction calls generalizing game with
  | nil => exact ⟨cycles, tidy, punctual⟩
  | cons call rest ih =>
      rw [List.mem_cons, not_or] at goesOn
      rw [strikesWithin, Bool.or_eq_false_iff] at single
      refine ih goesOn.2 single.2 ?_ (tidy_handle backend game (.call call) tidy)
        (punctual_call call punctual tidy)
      cases call with
      | submit line => exact cycles.submit line tidy (phase_submit_of_not_strikes single.1)
      | tick elapsed => exact cycles.tick elapsed tidy punctual
      | reset => exact absurd rfl goesOn.1

/-- When all that is due has fired, the phase is told by the clock. -/
theorem Cycles.phase_tick (elapsed : Nat) (cycles : game.Cycles config began)
    (tidy : game.machines.Tidy) (punctual : game.Punctual config)
    (inTime : (game.tick config elapsed).timers.now < latest ∨
      began + Phase.normal.beginMs config.collapse ≤ latest) :
    (game.tick config elapsed).collapse.phase =
      config.collapse.phaseAfter ((game.tick config elapsed).timers.now - began) := by
  have ticked := cycles.tick elapsed tidy punctual
  have nothing := Timers.pop?_eq_none_iff.1
    (step?_eq_none_iff.1 (step?_runDue config (later game.timers.now elapsed) game))
  have begun := ticked.begun
  have last := Phase.beginMs_le_endMs config.collapse (game.tick config elapsed).collapse.phase
  have within := Phase.endMs_le config.collapse (game.tick config elapsed).collapse.phase
  have onTime : began + (game.tick config elapsed).collapse.phase.beginMs config.collapse ≤
      (game.tick config elapsed).timers.now := by
    simp only [later] at begun
    omega
  refine (Phase.phaseAfter_eq (by omega) fun lasts => ?_).symm
  obtain ⟨entry, member, -, due⟩ := ticked.ends lasts
  have late := nothing entry member
  rw [due, ← now_tick config elapsed punctual.clock] at late
  simp only [later] at late
  omega

/--
A collapse takes its course by the clock.  Whatever has been done to a game, once a line has made a
normal terminal fail, every time that passes leaves the phase that its distance from that line
demands, whatever is typed meanwhile, until the game is started over or the next cycle begins.
-/
theorem phase_tick_of_strikes {backend : Backend} (valid : backend.config.validate = .ok ())
    (store : σ) :
    ∃ game, start backend.config store = .ok game ∧ ∀ handlings line calls elapsed,
      let before := game.handleAll backend handlings
      let struck := (before.submit backend line).game
      let after := (struck.play backend calls).tick backend.config elapsed
      before.strikes backend (.submit line) = true → Call.reset ∉ calls →
        struck.strikesWithin backend calls = false →
        (after.timers.now < latest ∨
          struck.timers.now + Phase.normal.beginMs backend.config.collapse ≤ latest) →
        after.collapse.phase =
          backend.config.collapse.phaseAfter (after.timers.now - struck.timers.now) := by
  obtain ⟨game, started, kept⟩ := exists_start_tidy valid store
  refine ⟨game, started, fun handlings line calls elapsed => ?_⟩
  obtain ⟨tidy, punctual⟩ := kept handlings
  intro before struck after strikes goesOn single
  have time : struck.timers.now = before.timers.now := now_submit backend before line
  have begins : struck.Cycles backend.config before.timers.now :=
    cycles_of_strikes punctual.clock strikes
  obtain ⟨cycles, tidy, punctual⟩ := begins.play goesOn single
    (tidy_submit backend line tidy) (punctual_submit line punctual tidy)
  rw [time]
  exact cycles.phase_tick elapsed tidy punctual

/-- A row of unknown commands that is one short of the threshold. -/
def stammer : List Handling :=
  List.replicate 4 (.call (.submit "x"))

def alarm : List Call :=
  [.submit "x", .submit "submit x", .tick 1000, .submit "login operator"]

theorem phase_tick_of_strikes_alarm :
    standardBackend.config.validate = .ok () ∧
      ∃ game, start standardBackend.config (⟨[]⟩ : MemoryStore) = .ok game ∧
        let before := game.handleAll standardBackend stammer
        let struck := (before.submit standardBackend "x").game
        let after := (struck.play standardBackend alarm).tick standardBackend.config 1500
        before.strikes standardBackend (.submit "x") = true ∧ Call.reset ∉ alarm ∧
          struck.strikesWithin standardBackend alarm = false ∧
          after.timers.now - struck.timers.now = 2500 ∧ after.timers.now < latest ∧
          after.collapse.phase = .shattering := by
  obtain ⟨game, started, course⟩ :=
    @phase_tick_of_strikes MemoryStore _ standardBackend rfl ⟨[]⟩
  have computed : (start standardBackend.config (⟨[]⟩ : MemoryStore)).toOption.map (fun game =>
      let before := game.handleAll standardBackend stammer
      let struck := (before.submit standardBackend "x").game
      let after := (struck.play standardBackend alarm).tick standardBackend.config 1500
      (before.strikes standardBackend (.submit "x"), struck.strikesWithin standardBackend alarm,
        struck.timers.now, after.timers.now)) = some (true, false, 0, 2500) := by
    decide +kernel
  rw [started] at computed
  simp only [Except.toOption, Option.map_some, Option.some.injEq, Prod.mk.injEq] at computed
  obtain ⟨strikes, single, began, now⟩ := computed
  have goesOn : Call.reset ∉ alarm := by decide
  have early : 2500 < latest := by decide
  have reached := course stammer "x" alarm 1500 strikes goesOn single (Or.inl (now ▸ early))
  rw [now, began] at reached
  refine ⟨rfl, game, started, strikes, goesOn, single, ?_, ?_, reached⟩
  · rw [now, began]
  · rw [now]
    exact early

end Game

end PuzzleShell

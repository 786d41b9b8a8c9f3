import PuzzleShell.Proofs.Game.Progress
import PuzzleShell.Proofs.Game.Punctual

/-!
# The terminal settles

What keeps the player from typing is a change of layers, a collapse or an exploded countdown.  The
first two are over by a time that can be told in advance: the end of each phase is due in time for
all the phases after it.  So time that lasts as long as a whole collapse and a change of layers
brings the terminal back, unless the countdown has exploded.
-/

namespace PuzzleShell

/-- How long it takes from the end of a phase until the terminal is normal again. -/
def Phase.restMs (settings : CollapseSettings) : Phase → Nat
  | .systemFailure => settings.shatterMs + settings.recoverMs
  | .shattering => settings.recoverMs
  | .recovering | .normal => 0

/-- After a phase that ends there is the next one, and then the rest of that. -/
theorem Phase.restMs_next? {settings : CollapseSettings} {phase next : Phase}
    (elapsed : phase.next? .holdElapsed = some next) :
    phase.restMs settings = (next.holdMs? settings).getD 0 + next.restMs settings := by
  cases phase <;> cases elapsed <;> rfl

/-- How long an event and what follows from it can keep the player from typing. -/
def Config.settlingMs (config : Config) : Nat :=
  config.collapse.failureMs + config.collapse.shatterMs + config.collapse.recoverMs +
    max config.layer.connectDelayMs config.layer.disconnectDelayMs

theorem later_later (time first second : Nat) :
    later (later time first) second = later time (first + second) := by
  simp only [later]
  omega

theorem later_le_later_of_le {delay most : Nat} (le : delay ≤ most) (time : Nat) :
    later time delay ≤ later time (min most latest) := by
  simp only [later]
  omega

namespace Game

variable {σ : Type} {config : Config} {game next : Game σ} {target : Nat}

/-- All phases of the collapse, and a change of layers, are over by a time. -/
structure Settles (config : Config) (target : Nat) (game : Game σ) : Prop where
  phaseOver : ∀ entry ∈ game.timers.pending, entry.event = .phaseOver →
    later entry.due (game.collapse.phase.restMs config.collapse) ≤ target
  switch : ∀ entry ∈ game.timers.pending, entry.event = .enterDeep ∨ entry.event = .leaveDeep →
    entry.due ≤ target

/-- Every phase fits into a collapse, with what is left of it afterwards. -/
theorem holdMs_add_restMs_le (config : Config) (phase : Phase) :
    (phase.holdMs? config.collapse).getD 0 + phase.restMs config.collapse ≤ config.settlingMs := by
  cases phase <;> simp only [Phase.holdMs?, Phase.restMs, Config.settlingMs, Option.getD] <;> omega

theorem delay_switch_le (config : Config) (phase : Phase) {event : GameEvent}
    (switches : event = .enterDeep ∨ event = .leaveDeep) :
    event.delay config phase ≤ config.settlingMs := by
  rcases switches with rfl | rfl <;> simp only [GameEvent.delay, Config.settlingMs] <;> omega

theorem settles_of_punctual (punctual : game.Punctual config) :
    game.Settles config (later game.timers.now (min config.settlingMs latest)) := by
  constructor
  · intro entry member ends
    have due := punctual.inTime entry member
    rw [ends, GameEvent.delay] at due
    have fits := holdMs_add_restMs_le config game.collapse.phase
    calc later entry.due (game.collapse.phase.restMs config.collapse)
        ≤ later (later game.timers.now ((game.collapse.phase.holdMs? config.collapse).getD 0))
            (game.collapse.phase.restMs config.collapse) := later_le_later due _
      _ = later game.timers.now ((game.collapse.phase.holdMs? config.collapse).getD 0 +
            game.collapse.phase.restMs config.collapse) := later_later _ _ _
      _ ≤ later game.timers.now (min config.settlingMs latest) := later_le_later_of_le fits _
  · intro entry member switches
    have due := punctual.inTime entry member
    exact Nat.le_trans due (later_le_later_of_le (delay_switch_le config _ switches) _)

/-- What is pending no longer needs no time. -/
theorem Settles.withTimers (settles : game.Settles config target) {timers : Timers GameEvent}
    (left : timers.pending ⊆ game.timers.pending) :
    Settles config target { game with timers := timers } :=
  ⟨fun entry member => settles.phaseOver entry (left member),
    fun entry member => settles.switch entry (left member)⟩

/-- A phase that is entered leaves enough time for itself and for all the phases after it. -/
theorem Settles.enterPhase (settles : game.Settles config target)
    (none : ∀ entry ∈ game.timers.pending, entry.event ≠ .phaseOver) {phase : Phase}
    (entered : game.collapse.phase = phase)
    (inTime : later (later game.timers.now ((phase.holdMs? config.collapse).getD 0))
      (phase.restMs config.collapse) ≤ target) :
    (game.enterPhase config phase).Settles config target := by
  have sets := sets_enterPhase config game phase
  constructor
  · intro entry member ends
    rw [phase_enterPhase, entered]
    rcases sets.pending entry member with before | fresh
    · exact absurd ends (none entry before)
    · rw [fresh.due]
      exact inTime
  · intro entry member switches
    rcases sets.pending entry member with before | fresh
    · exact settles.switch entry before switches
    · rw [fresh.event] at switches
      simp at switches

theorem inputEnabled_of_settled (still : game.switching = false)
    (normal : game.collapse.phase = .normal) :
    game.inputEnabled = true ∨ game.countdown.exploded = true := by
  unfold inputEnabled
  rw [still, normal]
  cases game.countdown.exploded <;> simp [Phase.acceptsInput]

variable [Store σ]

theorem Settles.fire_second (settles : game.Settles config target) :
    (game.fire config .second).Settles config target := by
  have sets := sets_fire_second config game.collapse.phase game
  constructor
  · intro entry member ends
    rw [collapse_fire_second]
    rcases sets.pending entry member with before | fresh
    · exact settles.phaseOver entry before ends
    · rw [fresh.event] at ends
      cases ends
  · intro entry member switches
    rcases sets.pending entry member with before | fresh
    · exact settles.switch entry before switches
    · rw [fresh.event] at switches
      simp at switches

/-- Whatever falls due leaves enough time for all that is still to come. -/
theorem Settles.step? (settles : game.Settles config target) (punctual : game.Punctual config)
    (disciplined : game.machines.Disciplined) (stepped : game.step? config target = some next) :
    next.Settles config target := by
  obtain ⟨entry, timers, popped, rfl⟩ := step?_eq_some_iff.1 stepped
  obtain ⟨member, left⟩ := Timers.mem_of_pop? popped
  obtain ⟨set, taken⟩ := awaits_pop? disciplined popped
  obtain ⟨-, moved⟩ := punctual.pop? disciplined.wellFormed popped
  have popsOff := settles.withTimers left
  cases event : entry.event with
  | phaseOver =>
      rw [event] at set taken
      obtain ⟨phase, elapsed⟩ := exists_next?_of_mem_waiting disciplined set
      have inTime := settles.phaseOver entry member event
      rw [Phase.restMs_next? elapsed, ← later_later, ← moved] at inTime
      rw [@fire_phaseOver σ { game with timers := timers } _ _ elapsed]
      have none := Timers.waiting_eq_nil_iff.1 taken.here
      exact @Settles.enterPhase σ config
        { game with timers := timers, collapse := ⟨phase, .none⟩ } target
        ⟨fun other still ends => absurd ends (none other still), popsOff.switch⟩ none phase rfl
        inTime
  | second => exact popsOff.fire_second
  | enterDeep | leaveDeep =>
      simp only [fire, say]
      exact ⟨popsOff.phaseOver, popsOff.switch⟩

/-- When nothing is due any more, no change of layers and no collapse is under way. -/
theorem Settles.settled (settles : game.Settles config target) (punctual : game.Punctual config)
    (disciplined : game.machines.Disciplined) (finished : game.step? config target = none) :
    game.switching = false ∧ game.collapse.phase = .normal := by
  have late := Timers.pop?_eq_none_iff.1 (step?_eq_none_iff.1 finished)
  have ended : game.timers.waiting .phaseOver = [] := by
    refine Timers.waiting_eq_nil_iff.2 fun entry member ends => ?_
    have inTime := settles.phaseOver entry member ends
    have further := le_later (punctual.due_le_latest member)
      (game.collapse.phase.restMs config.collapse)
    have overdue := late entry member
    omega
  have unchanging : ∀ event, event = GameEvent.enterDeep ∨ event = .leaveDeep →
      game.timers.waiting event = [] := by
    intro event switches
    refine Timers.waiting_eq_nil_iff.2 fun entry member same => ?_
    have inTime := settles.switch entry member (same ▸ switches)
    have overdue := late entry member
    omega
  have orderly := disciplined.orderly
  constructor
  · rw [← Bool.not_eq_true, orderly.switching, unchanging _ (Or.inl rfl),
      unchanging _ (Or.inr rfl)]
    exact Nat.zero_ne_one
  · by_contra lasting
    obtain ⟨id, -, awaited⟩ := orderly.lasting.1 lasting
    rw [ended] at awaited
    cases awaited

theorem settled_runDue (settles : game.Settles config target) (punctual : game.Punctual config)
    (disciplined : game.machines.Disciplined) :
    (game.runDue config target).switching = false ∧
      (game.runDue config target).collapse.phase = .normal := by
  fun_induction runDue config target game with
  | case1 game finished => exact settles.settled punctual disciplined finished
  | case2 game next stepped ih =>
      exact ih (settles.step? punctual disciplined stepped)
        (punctual.step? disciplined.tidy stepped) (disciplined_step? disciplined stepped)

/-- Time that lasts as long as a collapse and a change of layers sees the end of both. -/
theorem settled_tick (punctual : game.Punctual config) (disciplined : game.machines.Disciplined) :
    (game.tick config (min config.settlingMs latest)).switching = false ∧
      (game.tick config (min config.settlingMs latest)).collapse.phase = .normal := by
  rw [tick_eq]
  exact settled_runDue (settles_of_punctual punctual) punctual disciplined

/--
The terminal never gets stuck.  Whatever has been done to a game, time that lasts as long as all
phases of a collapse and the longer change of layers brings the player back to a terminal that
listens, unless the countdown has exploded.  A terminal that does not listen ignores every line.
-/
theorem inputEnabled_or_exploded_tick {backend : Backend}
    (valid : backend.config.validate = .ok ()) (store : σ) :
    ∃ game, start backend.config store = .ok game ∧ ∀ calls,
      (((game.play backend calls).tick backend.config
          (min backend.config.settlingMs latest)).inputEnabled = true ∨
        ((game.play backend calls).tick backend.config
          (min backend.config.settlingMs latest)).countdown.exploded = true) ∧
      ((game.play backend calls).inputEnabled = false → ∀ line,
        (game.play backend calls).submit backend line = ⟨false, [], game.play backend calls⟩) := by
  obtain ⟨game, started, kept⟩ := exists_start_punctual valid store
  refine ⟨game, started, fun calls => ?_⟩
  obtain ⟨disciplined, punctual⟩ := kept calls
  obtain ⟨still, normal⟩ := settled_tick punctual disciplined
  exact ⟨inputEnabled_of_settled still normal, submit_of_not_inputEnabled⟩

def shattering : List Call :=
  List.replicate 5 (.submit "x") ++ [.tick 2500]

/-- A shattering terminal ignores what is typed and listens again after that time. -/
theorem inputEnabled_or_exploded_tick_shattering :
    standardBackend.config.validate = .ok () ∧
      ∃ game, start standardBackend.config (⟨[]⟩ : MemoryStore) = .ok game ∧
        (game.play standardBackend shattering).inputEnabled = false ∧
        (game.play standardBackend shattering).submit standardBackend "help" =
          ⟨false, [], game.play standardBackend shattering⟩ ∧
        (((game.play standardBackend shattering).tick standardBackend.config
            (min standardBackend.config.settlingMs latest)).inputEnabled = true ∨
          ((game.play standardBackend shattering).tick standardBackend.config
            (min standardBackend.config.settlingMs latest)).countdown.exploded = true) := by
  obtain ⟨game, started, settles⟩ :=
    @inputEnabled_or_exploded_tick MemoryStore _ standardBackend rfl ⟨[]⟩
  have disabled : (start standardBackend.config (⟨[]⟩ : MemoryStore)).toOption.map
      (fun game => (game.play standardBackend shattering).inputEnabled) = some false := by
    decide +kernel
  rw [started] at disabled
  have ignored := Option.some.inj disabled
  exact ⟨rfl, game, started, ignored, (settles shattering).2 ignored "help",
    (settles shattering).1⟩

end Game

end PuzzleShell

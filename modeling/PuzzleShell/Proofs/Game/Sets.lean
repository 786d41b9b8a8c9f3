import PuzzleShell.Game.Clock
import PuzzleShell.Game.Input
import PuzzleShell.Proofs.Game.Firing

/-!
# What sets a timer

The parts of a game that show something, count seconds or hold the input back leave the player and
the trees alone and do not move the clock.  What is pending afterwards was pending before, or it
has been set just now, for the delay that its event has.
-/

namespace PuzzleShell

/-- How long an event is waited for; the end of a phase, as long as the given phase lasts. -/
def GameEvent.delay (config : Config) (phase : Phase) : GameEvent → Nat
  | .phaseOver => (phase.holdMs? config.collapse).getD 0
  | .second => config.countdown.tickMs
  | .enterDeep => config.layer.connectDelayMs
  | .leaveDeep => config.layer.disconnectDelayMs

structure Pending.SetAt (config : Config) (phase : Phase) (now : Nat) (kind : GameEvent)
    (entry : Pending GameEvent) : Prop where
  event : entry.event = kind
  due : entry.due = later now (kind.delay config phase)

def Output.switch? : Output → Option GameEvent
  | .connect _ => some .enterDeep
  | .disconnect => some .leaveDeep
  | _ => none

/--
The player, the trees and the clock are as they were, and nothing is pending that was not but what
is described.
-/
structure Game.Sets {σ : Type} (Fresh : Pending GameEvent → Prop) (game after : Game σ) : Prop where
  session : after.session = game.session
  standardTree : after.standardTree = game.standardTree
  deepTree : after.deepTree = game.deepTree
  parked : after.parked = game.parked
  now : after.timers.now = game.timers.now
  pending : ∀ entry ∈ after.timers.pending, entry ∈ game.timers.pending ∨ Fresh entry

namespace Game

variable {σ : Type} {config : Config} {game between after : Game σ}
  {Fresh Known : Pending GameEvent → Prop}

namespace Sets

theorem refl (game : Game σ) : Sets Fresh game game :=
  ⟨rfl, rfl, rfl, rfl, rfl, fun _ member => Or.inl member⟩

theorem mono (sets : Sets Fresh game after) (implied : ∀ entry, Fresh entry → Known entry) :
    Sets Known game after :=
  { sets with pending := fun entry member => (sets.pending entry member).imp_right (implied entry) }

theorem trans (first : Sets Fresh game between) (second : Sets Fresh between after) :
    Sets Fresh game after where
  session := second.session.trans first.session
  standardTree := second.standardTree.trans first.standardTree
  deepTree := second.deepTree.trans first.deepTree
  parked := second.parked.trans first.parked
  now := second.now.trans first.now
  pending entry member := by
    rcases second.pending entry member with before | fresh
    · exact first.pending entry before
    · exact Or.inr fresh

end Sets

/-- Setting one timer sets no other. -/
theorem mem_pending_schedule {timers : Timers GameEvent} {delay : Nat} {event : GameEvent}
    {entry : Pending GameEvent} (member : entry ∈ (timers.schedule delay event).2.pending) :
    entry ∈ timers.pending ∨ entry = ⟨timers.nextId, later timers.now delay, event⟩ := by
  rw [Timers.schedule, List.mem_append, List.mem_singleton] at member
  exact member

theorem collapse_cancelSecond (game : Game σ) : game.cancelSecond.collapse = game.collapse := by
  unfold cancelSecond
  split <;> rfl

theorem countdown_cancelSecond (game : Game σ) : game.cancelSecond.countdown = game.countdown := by
  unfold cancelSecond
  split <;> rfl

theorem sets_cancelSecond (game : Game σ) : Sets (fun _ => False) game game.cancelSecond := by
  unfold cancelSecond
  split
  · exact .refl game
  · exact ⟨rfl, rfl, rfl, rfl, rfl, fun entry member => Or.inl (List.mem_filter.1 member).1⟩

theorem sets_scheduleSecond (config : Config) (phase : Phase) {now : Nat}
    (time : game.timers.now = now) :
    Sets (Pending.SetAt config phase now .second) game (game.scheduleSecond config) := by
  have cancelled := sets_cancelSecond game
  refine ⟨cancelled.session, cancelled.standardTree, cancelled.deepTree, cancelled.parked,
    cancelled.now, ?_⟩
  intro entry member
  rcases mem_pending_schedule member with before | rfl
  · exact (cancelled.pending entry before).imp_right False.elim
  · refine Or.inr ⟨rfl, ?_⟩
    rw [cancelled.now, time, GameEvent.delay]

theorem sets_detonate (game : Game σ) : Sets (fun _ => False) game game.detonate := by
  have cancelled := sets_cancelSecond game
  simp only [detonate, say]
  exact ⟨cancelled.session, cancelled.standardTree, cancelled.deepTree, cancelled.parked,
    cancelled.now, cancelled.pending⟩

/-- Only the phase in which the terminal recovers does anything to the session. -/
theorem session_enterPhase (config : Config) (game : Game σ) (phase : Phase) :
    (game.enterPhase config phase).session =
      if phase = .recovering then { game.session with unknownStreak := 0 } else game.session := by
  cases phase <;> simp [enterPhase, Phase.holdMs?, say]

theorem phase_enterPhase (config : Config) (game : Game σ) (phase : Phase) :
    (game.enterPhase config phase).collapse.phase = game.collapse.phase := by
  cases phase <;> simp only [enterPhase, Phase.holdMs?, say]

/-- A phase sets its own timer and no other. -/
theorem sets_enterPhase (config : Config) (game : Game σ) (phase : Phase) :
    Sets (Pending.SetAt config phase game.timers.now .phaseOver)
      { game with session := (game.enterPhase config phase).session }
      (game.enterPhase config phase) := by
  have set : ∀ hold, phase.holdMs? config.collapse = some hold →
      ∀ entry ∈ (game.timers.schedule hold .phaseOver).2.pending,
        entry ∈ game.timers.pending ∨
          Pending.SetAt config phase game.timers.now .phaseOver entry := by
    intro hold lasts entry member
    refine (mem_pending_schedule member).imp_right ?_
    rintro rfl
    exact ⟨rfl, by rw [GameEvent.delay, lasts, Option.getD_some]⟩
  cases phase with
  | normal =>
      simp only [enterPhase, Phase.holdMs?, say]
      exact ⟨rfl, rfl, rfl, rfl, rfl, fun entry member => Or.inl member⟩
  | systemFailure =>
      simp only [enterPhase, Phase.holdMs?, say]
      exact ⟨rfl, rfl, rfl, rfl, rfl, set _ rfl⟩
  | shattering =>
      simp only [enterPhase, Phase.holdMs?, say]
      exact ⟨rfl, rfl, rfl, rfl, rfl, set _ rfl⟩
  | recovering =>
      simp only [enterPhase, Phase.holdMs?]
      exact ⟨rfl, rfl, rfl, rfl, rfl, set _ rfl⟩

/-- A row of unknown commands does nothing, or it makes a normal terminal fail. -/
theorem checkStreak_cases (config : Config) (game : Game σ) :
    game.checkStreak config = game ∨
      game.collapse.phase = .normal ∧
        game.checkStreak config =
          { game with collapse := { game.collapse with phase := .systemFailure } }.enterPhase
            config .systemFailure := by
  unfold checkStreak
  split
  next triggered =>
    have normal : game.collapse.phase = .normal := by
      simp only [Collapse.triggers, Bool.and_eq_true, decide_eq_true_eq] at triggered
      exact triggered.1
    simp only [Collapse.fire, normal, Phase.next?]
    exact Or.inr ⟨trivial, trivial⟩
  · exact Or.inl rfl

theorem sets_checkStreak (config : Config) (game : Game σ) :
    Sets (Pending.SetAt config .systemFailure game.timers.now .phaseOver) game
      (game.checkStreak config) := by
  rcases checkStreak_cases config game with same | ⟨-, fails⟩
  · rw [same]
    exact .refl game
  · have entered := sets_enterPhase config
      { game with collapse := { game.collapse with phase := .systemFailure } } .systemFailure
    rw [session_enterPhase, if_neg (by decide), ← fails] at entered
    exact ⟨entered.session, entered.standardTree, entered.deepTree, entered.parked, entered.now,
      entered.pending⟩

theorem sets_beginSwitch (game : Game σ) (notice : String) (delay : Nat) (event : GameEvent) :
    Sets (fun entry => entry = ⟨game.timers.nextId, later game.timers.now delay, event⟩) game
      (game.beginSwitch notice delay event) := by
  simp only [beginSwitch, scheduleEvent, say]
  exact ⟨rfl, rfl, rfl, rfl, rfl, fun _ member => mem_pending_schedule member⟩

/-- Showing a message sets nothing. -/
theorem Sets.say (sets : Sets Fresh game after) (text : String) :
    Sets Fresh game (after.say text) := by
  unfold Game.say
  exact ⟨sets.session, sets.standardTree, sets.deepTree, sets.parked, sets.now, sets.pending⟩

/-- The game when a turn is over, before its answer takes effect. -/
def worked (game : Game σ) (shown : Transcript) (turn : Turn) : Game σ :=
  { game with transcript := shown, session := turn.session, tool := turn.tool }.withTree
    game.session.layer turn.tree

section Worked

variable (game : Game σ) (shown : Transcript) (turn : Turn)

theorem timers_worked : (game.worked shown turn).timers = game.timers := by
  unfold worked withTree
  split <;> rfl

theorem collapse_worked : (game.worked shown turn).collapse = game.collapse := by
  unfold worked withTree
  split <;> rfl

end Worked

variable [Store σ]

/-- Storing the countdown sets nothing. -/
theorem Sets.saveCountdown (config : Config) (sets : Sets Fresh game after) :
    Sets Fresh game (after.saveCountdown config) :=
  ⟨sets.session, sets.standardTree, sets.deepTree, sets.parked, sets.now, sets.pending⟩

theorem sets_rejectFlag (config : Config) (phase : Phase) (game : Game σ) :
    Sets (Pending.SetAt config phase game.timers.now .second) game (game.rejectFlag config) := by
  simp only [rejectFlag]
  apply Sets.saveCountdown
  generalize game.countdown.wrongFlag config.countdown = judged
  obtain ⟨change, countdown⟩ := judged
  have quiet : Sets (Pending.SetAt config phase game.timers.now .second) game
      { game.answer "Flag rejected." with countdown := countdown } := by
    simp only [answer]
    exact ⟨rfl, rfl, rfl, rfl, rfl, fun entry member => Or.inl member⟩
  generalize ({ game.answer "Flag rejected." with countdown := countdown } : Game σ) = counted
    at quiet ⊢
  cases change with
  | armed => exact (quiet.say _).trans (sets_scheduleSecond config phase quiet.now)
  | penalized => exact quiet.say _
  | exploded => exact quiet.trans ((sets_detonate counted).mono fun entry => False.elim)
  | ticked | disarmed | unchanged => exact quiet

theorem sets_acceptFlag (config : Config) (game : Game σ) (id : Option Nat) :
    Sets (fun _ => False) game (game.acceptFlag config id) := by
  simp only [acceptFlag]
  generalize thanked : game.answer _ = shown
  have quiet : Sets (fun _ => False) game (shown.saveSolved config) := by
    rw [← thanked]
    simp only [answer, saveSolved]
    exact ⟨rfl, rfl, rfl, rfl, rfl, fun entry member => Or.inl member⟩
  generalize shown.saveSolved config = saved at quiet ⊢
  split
  · have cancelled := quiet.trans (sets_cancelSecond saved)
    apply Sets.saveCountdown
    apply Sets.say
    exact ⟨cancelled.session, cancelled.standardTree, cancelled.deepTree, cancelled.parked,
      cancelled.now, cancelled.pending⟩
  · exact quiet

inductive AnswerSets (config : Config) (phase : Phase) (timers : Timers GameEvent)
    (output : Output) : Pending GameEvent → Prop where
  | second {entry : Pending GameEvent} (set : entry.SetAt config phase timers.now .second) :
      AnswerSets config phase timers output entry
  | switch {event : GameEvent} (asked : output.switch? = some event) :
      AnswerSets config phase timers output
        ⟨timers.nextId, later timers.now (event.delay config phase), event⟩

theorem sets_applyOutput (config : Config) (phase : Phase) (game : Game σ) (output : Output) :
    Sets (AnswerSets config phase game.timers output) game
      (game.applyOutput config output) := by
  unfold applyOutput
  cases output with
  | text text | silent | clear =>
      simp only [answer]
      exact ⟨rfl, rfl, rfl, rfl, rfl, fun entry member => Or.inl member⟩
  | connect host =>
      have asked : (Output.connect host).switch? = some .enterDeep := rfl
      refine (sets_beginSwitch game _ _ _).mono ?_
      rintro entry rfl
      exact .switch asked
  | disconnect =>
      have asked : Output.disconnect.switch? = some .leaveDeep := rfl
      refine (sets_beginSwitch game _ _ _).mono ?_
      rintro entry rfl
      exact .switch asked
  | flagChecked accepted id =>
      cases accepted with
      | true => exact (sets_acceptFlag config game id).mono fun entry => False.elim
      | false => exact (sets_rejectFlag config phase game).mono fun entry set => .second set

/-- An answer leaves the collapse alone. -/
theorem collapse_applyOutput (config : Config) (game : Game σ) (output : Output) :
    (game.applyOutput config output).collapse = game.collapse := by
  cases output with
  | text text | silent | clear | connect host | disconnect =>
      simp only [applyOutput, answer, beginSwitch, scheduleEvent, say]
  | flagChecked accepted id =>
      cases accepted with
      | true =>
          simp only [applyOutput, acceptFlag]
          split
          · simp only [saveCountdown, say, collapse_cancelSecond, saveSolved, answer]
          · simp only [saveSolved, answer]
      | false =>
          simp only [applyOutput, rejectFlag, saveCountdown]
          split
          · simp only [scheduleSecond, collapse_cancelSecond, say, answer]
          · simp only [say, answer]
          · simp only [detonate, collapse_cancelSecond, say, answer]
          · simp only [answer]

/-- A phase that ends makes way for the next one, which is entered without a timer yet. -/
theorem fire_phaseOver {next : Phase} (elapsed : game.collapse.phase.next? .holdElapsed = some next)
    (config : Config) :
    game.fire config .phaseOver =
      { game with collapse := ⟨next, none⟩ }.enterPhase config next := by
  simp only [fire, Collapse.takeTimer, Collapse.fire, elapsed]

theorem sets_fire_second (config : Config) (phase : Phase) (game : Game σ) :
    Sets (Pending.SetAt config phase game.timers.now .second) game
      (game.fire config .second) := by
  simp only [fire]
  apply Sets.saveCountdown
  have quiet : Sets (Pending.SetAt config phase game.timers.now .second) game
      { game with countdownTimer := none, countdown := game.countdown.tick.2 } :=
    ⟨rfl, rfl, rfl, rfl, rfl, fun entry member => Or.inl member⟩
  split
  · exact quiet.trans (sets_scheduleSecond config phase quiet.now)
  · exact quiet.trans ((sets_detonate _).mono fun entry => False.elim)
  · exact quiet

theorem collapse_fire_second (config : Config) (game : Game σ) :
    (game.fire config .second).collapse = game.collapse := by
  simp only [fire, saveCountdown]
  split
  · simp only [scheduleSecond, collapse_cancelSecond]
  · simp only [detonate, say, collapse_cancelSecond]
  · rfl

def turn (game : Game σ) : Turn :=
  ⟨game.session, game.tree, game.tool, []⟩

/-- What the commands of the session's layer make of a line. -/
def typed (backend : Backend) (game : Game σ) (line : String) : Output × Turn :=
  (Registry.ofLayer game.session.layer).submit backend line game.turn

/-- A line that is processed shows in the transcript, and then its answer takes effect. -/
theorem submit_of_inputEnabled (backend : Backend) (line : String)
    (enabled : game.inputEnabled = true) :
    game.submit backend line =
      ⟨true, (game.typed backend line).2.asked,
        ((game.worked
          (game.transcript.pushInput (game.prompt backend.config)
            (if game.tool.any Tool.masksInput then mask else line))
          (game.typed backend line).2).applyOutput
            backend.config (game.typed backend line).1).checkStreak backend.config⟩ := by
  unfold submit typed turn worked
  rw [if_pos enabled]

theorem submit_game_eq (backend : Backend) (line : String) (enabled : game.inputEnabled = true) :
    ∃ shown, (game.submit backend line).game =
      ((game.worked shown (game.typed backend line).2).applyOutput
        backend.config (game.typed backend line).1).checkStreak backend.config :=
  ⟨_, congrArg Submission.game (submit_of_inputEnabled backend line enabled)⟩

/-- What a line of input may set: what its answer sets, or the end of a failure. -/
theorem exists_sets_submit (backend : Backend) (line : String) (phase : Phase)
    (enabled : game.inputEnabled = true) :
    ∃ shown, Sets (fun entry =>
        AnswerSets backend.config phase game.timers (game.typed backend line).1 entry ∨
          entry.SetAt backend.config .systemFailure game.timers.now .phaseOver)
      (game.worked shown (game.typed backend line).2) (game.submit backend line).game := by
  obtain ⟨shown, processed⟩ := submit_game_eq backend line enabled
  have applied := sets_applyOutput backend.config phase
    (game.worked shown (game.typed backend line).2) (game.typed backend line).1
  have checked := sets_checkStreak backend.config
    ((game.worked shown (game.typed backend line).2).applyOutput backend.config
      (game.typed backend line).1)
  rw [applied.now, timers_worked] at checked
  rw [timers_worked] at applied
  refine ⟨shown, ?_⟩
  rw [processed]
  exact (applied.mono fun entry => Or.inl).trans (checked.mono fun entry => Or.inr)

/-- Typing takes no time. -/
theorem now_submit (backend : Backend) (game : Game σ) (line : String) :
    (game.submit backend line).game.timers.now = game.timers.now := by
  by_cases enabled : game.inputEnabled = true
  · obtain ⟨shown, sets⟩ := exists_sets_submit backend line .normal enabled
    rw [sets.now, timers_worked]
  · rw [submit, if_neg enabled]

end Game

end PuzzleShell

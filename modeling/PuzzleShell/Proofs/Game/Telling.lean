import PuzzleShell.Proofs.Game.Beginning
import PuzzleShell.Proofs.Game.Progress
import PuzzleShell.Proofs.Transcript

/-!
# What a game tells

A game does nothing to its transcript but write to it: it adds lines at the end, and now and then it
wipes them all.  So whatever is done to a game, its transcript is a window on a log.
-/

namespace PuzzleShell

/-- One transcript is what becomes of another that is written to. -/
def Transcript.Continues (after before : Transcript) : Prop :=
  ∃ writings, after = List.foldl Transcript.write before writings

namespace Transcript.Continues

variable {before between after : Transcript}

theorem refl (transcript : Transcript) : transcript.Continues transcript :=
  ⟨[], rfl⟩

theorem trans (first : between.Continues before) (second : after.Continues between) :
    after.Continues before := by
  obtain ⟨earlier, rfl⟩ := first
  obtain ⟨later, rfl⟩ := second
  exact ⟨earlier ++ later, by rw [List.foldl_append]⟩

theorem write (continues : after.Continues before) (writing : Writing) :
    (after.write writing).Continues before :=
  continues.trans ⟨[writing], rfl⟩

theorem input (continues : after.Continues before) (prompt text : String) :
    (after.pushInput prompt text).Continues before :=
  continues.write (.input prompt text)

theorem output (continues : after.Continues before) (text : String) :
    (after.pushOutput text).Continues before :=
  continues.write (.output text)

theorem system (continues : after.Continues before) (text : String) :
    (after.pushSystem text).Continues before :=
  continues.write (.system text)

theorem clear (continues : after.Continues before) : after.clear.Continues before :=
  continues.write .clear

end Transcript.Continues

namespace Game

variable {σ : Type} {config : Config} {game next : Game σ} {before : Transcript}

theorem transcript_cancelSecond (game : Game σ) :
    game.cancelSecond.transcript = game.transcript := by
  unfold cancelSecond
  split <;> rfl

theorem transcript_scheduleSecond (config : Config) (game : Game σ) :
    (game.scheduleSecond config).transcript = game.transcript := by
  simp only [scheduleSecond, transcript_cancelSecond]

theorem transcript_worked (game : Game σ) (shown : Transcript) (turn : Turn) :
    (game.worked shown turn).transcript = shown := by
  unfold worked withTree
  split <;> rfl

section Writes

variable (continues : game.transcript.Continues before)

include continues

theorem continues_detonate : game.detonate.transcript.Continues before := by
  simp only [detonate, say, transcript_cancelSecond]
  exact (continues.system _).system _

theorem continues_enterPhase (config : Config) (phase : Phase) :
    (game.enterPhase config phase).transcript.Continues before := by
  cases phase with
  | normal | systemFailure | shattering =>
      simp only [enterPhase, Phase.holdMs?, say]
      exact continues.system _
  | recovering =>
      simp only [enterPhase, Phase.holdMs?]
      exact continues.clear

theorem continues_checkStreak (config : Config) :
    (game.checkStreak config).transcript.Continues before := by
  rcases checkStreak_cases config game with same | ⟨-, fails⟩
  · rw [same]
    exact continues
  · rw [fails]
    apply continues_enterPhase
    exact continues

variable [Store σ]

theorem continues_rejectFlag (config : Config) :
    (game.rejectFlag config).transcript.Continues before := by
  have rejected := continues.output "Flag rejected."
  simp only [rejectFlag, saveCountdown]
  generalize game.countdown.wrongFlag config.countdown = judged
  obtain ⟨change, countdown⟩ := judged
  cases change with
  | armed =>
      simp only [transcript_scheduleSecond, say, answer]
      exact rejected.system _
  | penalized =>
      simp only [say, answer]
      exact rejected.system _
  | exploded =>
      apply continues_detonate
      exact rejected
  | ticked | disarmed | unchanged => exact rejected

theorem continues_acceptFlag (config : Config) (id : Option Nat) :
    (game.acceptFlag config id).transcript.Continues before := by
  simp only [acceptFlag]
  generalize thanked : game.answer _ = shown
  have accepted : shown.transcript.Continues before := by
    rw [← thanked]
    exact continues.output _
  split
  · simp only [saveCountdown, say, transcript_cancelSecond, saveSolved]
    exact accepted.system _
  · exact accepted

theorem continues_applyOutput (config : Config) (output : Output) :
    (game.applyOutput config output).transcript.Continues before := by
  cases output with
  | text text => exact continues.output text
  | silent => exact continues
  | clear => exact continues.clear
  | connect host | disconnect => exact continues.system _
  | flagChecked accepted id =>
      cases accepted with
      | true => exact continues_acceptFlag continues config id
      | false => exact continues_rejectFlag continues config

theorem continues_submit (backend : Backend) (line : String) :
    (game.submit backend line).game.transcript.Continues before := by
  by_cases enabled : game.inputEnabled = true
  · rw [submit_of_inputEnabled backend line enabled]
    apply continues_checkStreak
    apply continues_applyOutput
    rw [transcript_worked]
    exact continues.input _ _
  · rw [submit_of_not_inputEnabled (Bool.not_eq_true _ ▸ enabled)]
    exact continues

theorem continues_fire (config : Config) (event : GameEvent) :
    (game.fire config event).transcript.Continues before := by
  cases event with
  | phaseOver =>
      cases elapsed : game.collapse.phase.next? .holdElapsed with
      | none =>
          simp only [fire, Collapse.takeTimer, Collapse.fire, elapsed]
          exact continues
      | some phase =>
          rw [fire_phaseOver elapsed]
          apply continues_enterPhase
          exact continues
  | second =>
      simp only [fire, saveCountdown]
      split
      · rw [transcript_scheduleSecond]
        exact continues
      · apply continues_detonate
        exact continues
      · exact continues
  | enterDeep | leaveDeep => exact continues.system _

theorem continues_tick (config : Config) (elapsed : Nat) :
    (game.tick config elapsed).transcript.Continues before := by
  refine runDue_preserves (fun after : Game σ => after.transcript.Continues before) ?_ continues
  intro game next stepped continues
  obtain ⟨entry, timers, -, rfl⟩ := step?_eq_some_iff.1 stepped
  apply continues_fire
  exact continues

theorem continues_handle (backend : Backend) (handling : Handling) :
    (game.handle backend handling).transcript.Continues before := by
  cases handling with
  | shutdown => exact continues
  | call call =>
      cases call with
      | submit line => exact continues_submit continues backend line
      | tick elapsed => exact continues_tick continues backend.config elapsed
      | reset => exact continues.clear.system _

end Writes

variable [Store σ]

theorem continues_handleAll (backend : Backend) (handlings : List Handling) (game : Game σ) :
    (game.handleAll backend handlings).transcript.Continues game.transcript :=
  handleAll_preserves (fun after : Game σ => after.transcript.Continues game.transcript)
    (fun _ handling continues => continues_handle continues backend handling) handlings (.refl _)

theorem continues_start {store : σ} (started : start config store = .ok game) :
    game.transcript.Continues .start := by
  have greeted := (Transcript.Continues.refl .start).system banner
  unfold start at started
  obtain ⟨_, -, opened⟩ := bind_eq_ok_iff.1 started
  simp only [say, pure, Except.pure] at opened
  generalize ((Progress.loadCountdown? store config.storage.countdownKey).getD
    .inactive).normalized = countdown at opened
  by_cases finished : countdown.exploded = true
  · simp only [finished, if_true] at opened
    cases opened
    exact greeted.system _
  · simp only [finished] at opened
    by_cases armed : countdown.active = true
    · simp only [armed, if_true] at opened
      cases opened
      rw [transcript_scheduleSecond]
      exact greeted.system _
    · simp only [armed] at opened
      cases opened
      exact greeted

/-- Whatever is done to a game, its transcript shows the end of a log. -/
theorem exists_written_handleAll {store : σ} (started : start config store = .ok game)
    (backend : Backend) (handlings : List Handling) :
    ∃ writings, (game.handleAll backend handlings).transcript = Transcript.written writings :=
  (continues_start started).trans (continues_handleAll backend handlings game)

end Game

end PuzzleShell

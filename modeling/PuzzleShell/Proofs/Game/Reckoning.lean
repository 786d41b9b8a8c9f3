import PuzzleShell.Proofs.Command.Reading
import PuzzleShell.Proofs.Game.Settling
import PuzzleShell.Proofs.Game.Staying

/-!
# The reckoning of the countdown

A running countdown loses one second at each of its instants and the penalty with each rejected
flag, in whatever order they come.  The instants are a step apart, counted from the first one that
is due; a penalty neither puts the next one off nor adds another.
-/

namespace PuzzleShell

/-- The number of the instants `first`, `first + step`, `first + 2 * step`, … up to a time. -/
def instants (first step time : Nat) : Nat :=
  if time < first then 0 else (time - first) / step + 1

section Instants

variable {first step time count passed : Nat}

theorem lt_instants_iff (positive : 0 < step) :
    count < instants first step time ↔ first + count * step ≤ time := by
  unfold instants
  split
  next early => omega
  next late =>
    rw [Nat.lt_succ_iff, Nat.le_div_iff_mul_le positive]
    omega

theorem le_instants (positive : 0 < step)
    (reached : ∀ count < passed, first + count * step ≤ time) :
    passed ≤ instants first step time := by
  by_contra fewer
  have more := reached _ (Nat.not_le.1 fewer)
  rw [← lt_instants_iff positive] at more
  exact Nat.lt_irrefl _ more

theorem instants_eq (positive : 0 < step)
    (reached : ∀ count < passed, first + count * step ≤ time)
    (ahead : time < first + passed * step) : instants first step time = passed := by
  refine Nat.le_antisymm ?_ (le_instants positive reached)
  rw [← Nat.not_lt, lt_instants_iff positive]
  exact Nat.not_le.2 ahead

end Instants

namespace Game

variable {σ : Type} {config : Config} {game next : Game σ} {first left rejected target : Nat}

/--
A countdown had `left` seconds when its instants began, and so many flags have been rejected since.
Either it runs with what is left and its next instant is due, or it is spent because that was
enough.
-/
inductive Reckoned (config : Config) (first left rejected : Nat) (game : Game σ) : Prop where
  | running (passed : Nat) {rest : Nat} (countdown : game.countdown = ⟨true, rest, false⟩)
      (positive : 0 < rest)
      (sum : rest + (rejected * config.countdown.penaltySecs + passed) = left)
      (reached : ∀ count < passed, first + count * config.countdown.tickMs ≤ game.timers.now)
      (awaited : ∃ entry ∈ game.timers.pending, entry.event = .second ∧
        entry.due = later first (passed * config.countdown.tickMs))
  | ended (passed : Nat) (countdown : game.countdown = .spent)
      (enough : left ≤ rejected * config.countdown.penaltySecs + passed)
      (reached : ∀ count < passed, first + count * config.countdown.tickMs ≤ game.timers.now)

/-- What leaves the countdown and its next instant alone does not change the reckoning. -/
theorem Reckoned.of_eq (reckoned : game.Reckoned config first left rejected)
    (countdown : next.countdown = game.countdown) (forwards : game.timers.now ≤ next.timers.now)
    (stays : ∀ entry ∈ game.timers.pending, entry.event = .second →
      entry ∈ next.timers.pending) : next.Reckoned config first left rejected := by
  cases reckoned with
  | running passed runs positive sum reached awaited =>
      obtain ⟨entry, member, second, due⟩ := awaited
      exact .running passed (countdown.trans runs) positive sum
        (fun count earlier => Nat.le_trans (reached count earlier) forwards)
        ⟨entry, stays entry member second, second, due⟩
  | ended passed spent enough reached =>
      exact .ended passed (countdown.trans spent) enough
        (fun count earlier => Nat.le_trans (reached count earlier) forwards)

/-- The verdict on the flag that a line hands in, if it is processed and hands one in. -/
def verdict? (backend : Backend) (game : Game σ) (line : String) : Option Verdict :=
  if game.inputEnabled then
    Registry.verdictOn backend ((Registry.ofLayer game.session.layer).flag? game.tool line)
  else none

def verdictOf? (backend : Backend) (game : Game σ) : Call → Option Verdict
  | .submit line => game.verdict? backend line
  | .tick _ | .reset => none

/-- What a line is answered that is processed. -/
theorem recorded_typed (backend : Backend) (line : String) (enabled : game.inputEnabled = true) :
    Registry.Recorded ((game.typed backend line).2.session.unknownStreak)
      (game.verdict? backend line) game.turn (game.typed backend line) := by
  have recorded := Registry.recorded_submit game.session.layer backend line game.turn
  rw [verdict?, if_pos enabled]
  exact ⟨rfl, recorded.judged, recorded.unjudged⟩

variable [Store σ]

/-- A second that is not the last one sets the next. -/
theorem exists_pending_fire_second {rest : Nat} (runs : game.countdown = ⟨true, rest, false⟩)
    (more : 1 < rest) :
    ∃ entry ∈ (game.fire config .second).timers.pending,
      entry.event = .second ∧ entry.due = later game.timers.now config.countdown.tickMs := by
  simp only [fire, saveCountdown, runs, Countdown.tick_running, if_neg (Nat.not_le.2 more)]
  exact exists_pending_scheduleSecond config _

/-- An instant that is due takes one second off. -/
theorem Reckoned.fire_second {passed rest : Nat}
    (runs : game.countdown = ⟨true, rest, false⟩) (positive : 0 < rest)
    (sum : rest + (rejected * config.countdown.penaltySecs + passed) = left)
    (reached : ∀ count < passed, first + count * config.countdown.tickMs ≤ game.timers.now)
    (onTime : game.timers.now = first + passed * config.countdown.tickMs) :
    (game.fire config .second).Reckoned config first left rejected := by
  have counted := countdown_fire config game .second
  rw [if_pos rfl, runs, Countdown.tick_running] at counted
  have onwards : ∀ count < passed + 1,
      first + count * config.countdown.tickMs ≤ (game.fire config .second).timers.now := by
    intro count earlier
    rw [now_fire]
    rcases Nat.lt_succ_iff_lt_or_eq.1 earlier with before | rfl
    · exact reached count before
    · exact Nat.le_of_eq onTime.symm
  by_cases last : rest ≤ 1
  · rw [if_pos last] at counted
    exact .ended (passed + 1) counted (by omega) onwards
  · rw [if_neg last] at counted
    obtain ⟨entry, member, second, due⟩ :=
      @exists_pending_fire_second σ config game _ rest runs (Nat.not_le.1 last)
    refine .running (passed + 1) counted (by omega) (by omega) onwards ⟨entry, member, second, ?_⟩
    rw [due, onTime, Nat.add_one_mul]
    simp only [later]
    omega

/-- What falls due before the clock comes to its end keeps to the reckoning. -/
theorem Reckoned.step? (reckoned : game.Reckoned config first left rejected)
    (tidy : game.machines.Tidy) (punctual : game.Punctual config) (early : target < latest)
    (stepped : game.step? config target = some next) :
    next.Reckoned config first left rejected := by
  obtain ⟨popped, timers, taken, rfl⟩ := step?_eq_some_iff.1 stepped
  obtain ⟨here, -⟩ := Timers.mem_of_pop? taken
  have inTime := (Timers.now_of_pop? taken).1
  have moved := (punctual.pop? tidy.wellFormed taken).2
  have forwards := punctual.notOverdue popped here
  rw [← moved] at forwards
  by_cases second : popped.event = .second
  · rw [second]
    cases reckoned with
    | running passed runs positive sum reached awaited =>
        obtain ⟨entry, member, too, due⟩ := awaited
        obtain rfl := eq_of_second tidy member too here second
        refine @Reckoned.fire_second σ config { game with timers := timers } _ _ _ _ _ _ runs
          positive sum (fun count earlier => Nat.le_trans (reached count earlier) forwards) ?_
        simp only [later] at due
        dsimp only
        omega
    | ended passed spent enough reached =>
        refine .ended passed ?_ enough fun count earlier => ?_
        · rw [countdown_fire, if_pos rfl]
          dsimp only
          rw [spent]
          rfl
        · rw [now_fire]
          exact Nat.le_trans (reached count earlier) forwards
  · have kept : Reckoned config first left rejected { game with timers := timers } := by
      refine reckoned.of_eq rfl forwards fun entry member ends => ?_
      rcases mem_pending_pop? tidy taken member with rfl | still
      · exact absurd ends second
      · exact still
    refine kept.of_eq ?_ (Nat.le_of_eq (now_fire config _ _).symm) fun entry member _ =>
      mem_pending_fire config _ member
    rw [countdown_fire, if_neg second]

theorem Reckoned.runDue (reckoned : game.Reckoned config first left rejected)
    (tidy : game.machines.Tidy) (punctual : game.Punctual config) (early : target < latest) :
    (game.runDue config target).Reckoned config first left rejected :=
  (runDue_preserves_onTime (Reckoned config first left rejected)
    (fun _ _ tidy punctual stepped reckoned => reckoned.step? tidy punctual early stepped) tidy
    punctual reckoned).2

theorem Reckoned.tick (elapsed : Nat) (reckoned : game.Reckoned config first left rejected)
    (tidy : game.machines.Tidy) (punctual : game.Punctual config)
    (early : later game.timers.now elapsed < latest) :
    (game.tick config elapsed).Reckoned config first left rejected := by
  refine (reckoned.runDue tidy punctual early).of_eq rfl ?_ fun entry member _ => member
  exact Nat.le_max_left _ _

def verdicts (backend : Backend) (game : Game σ) : List Call → List Verdict
  | [] => []
  | call :: rest =>
      (game.verdictOf? backend call).toList ++ (game.call backend call).verdicts backend rest

/-- What an answer leaves pending is still pending when the line has been processed. -/
theorem mem_pending_submit_of_applyOutput {backend : Backend} {line : String}
    {entry : Pending GameEvent} (enabled : game.inputEnabled = true)
    (applied : ∀ working : Game σ, working.timers = game.timers →
      working.countdown = game.countdown → entry ∈ (working.applyOutput backend.config
        (game.typed backend line).1).timers.pending) :
    entry ∈ (game.submit backend line).game.timers.pending := by
  obtain ⟨shown, processed⟩ := submit_game_eq backend line enabled
  rw [processed]
  exact mem_pending_checkStreak _ (applied _ (timers_worked game shown _)
    (countdown_worked game shown _))

/-- A line with no verdict does not change the reckoning. -/
theorem Reckoned.submit_of_none {backend : Backend} {line : String}
    (reckoned : game.Reckoned backend.config first left rejected)
    (none : game.verdict? backend line = none) :
    (game.submit backend line).game.Reckoned backend.config first left rejected := by
  by_cases enabled : game.inputEnabled = true
  · have unjudged := ((recorded_typed backend line enabled).unjudged none).1
    refine reckoned.of_eq ?_ (Nat.le_of_eq (now_submit backend game line).symm) ?_
    · rw [countdown_submit backend line enabled, Countdown.judged_of_unjudged _ _ unjudged]
    · intro entry member _
      refine mem_pending_submit_of_applyOutput enabled fun working timers _ => ?_
      exact mem_pending_applyOutput_of_unjudged _ unjudged (timers ▸ member)
  · rw [submit_of_not_inputEnabled (Bool.not_eq_true _ ▸ enabled)]
    exact reckoned

/-- A rejected flag costs the penalty. -/
theorem Reckoned.submit_of_rejected {backend : Backend} {line : String} {verdict : Verdict}
    (reckoned : game.Reckoned backend.config first left rejected)
    (judged : game.verdict? backend line = some verdict) (wrong : verdict.accepted = false) :
    (game.submit backend line).game.Reckoned backend.config first left (rejected + 1) := by
  have enabled : game.inputEnabled = true := by
    by_contra disabled
    rw [verdict?, if_neg disabled] at judged
    cases judged
  have answered := ((recorded_typed backend line enabled).judged verdict judged).1
  rw [wrong] at answered
  have counted := countdown_submit backend line enabled
  rw [answered, Countdown.judged] at counted
  have time := now_submit backend game line
  have total : (rejected + 1) * backend.config.countdown.penaltySecs =
      rejected * backend.config.countdown.penaltySecs + backend.config.countdown.penaltySecs :=
    Nat.add_one_mul _ _
  cases reckoned with
  | @running passed rest runs positive sum reached awaited =>
      rw [runs, Countdown.wrongFlag_running] at counted
      by_cases last : rest ≤ backend.config.countdown.penaltySecs
      · rw [if_pos last] at counted
        refine .ended passed counted (by omega) ?_
        rw [time]
        exact reached
      · rw [if_neg last] at counted
        obtain ⟨entry, member, second, due⟩ := awaited
        refine .running passed counted (by omega) (by omega) ?_ ⟨entry, ?_, second, due⟩
        · rw [time]
          exact reached
        · refine mem_pending_submit_of_applyOutput enabled fun working timers same => ?_
          rw [answered, applyOutput, timers_rejectFlag_of_lt (same.trans runs) (Nat.not_le.1 last),
            timers]
          exact member
  | ended passed spent enough reached =>
      -- An exploded countdown keeps the terminal from listening.
      rw [inputEnabled, spent, Countdown.spent, Bool.not_true, Bool.and_false,
        Bool.false_and] at enabled
      cases enabled

theorem Reckoned.submit {backend : Backend} (line : String)
    (reckoned : game.Reckoned backend.config first left rejected)
    (wrong : ∀ verdict ∈ (game.verdict? backend line).toList, verdict.accepted = false) :
    (game.submit backend line).game.Reckoned backend.config first left
      (rejected + (game.verdict? backend line).toList.length) := by
  cases judged : game.verdict? backend line with
  | none => exact reckoned.submit_of_none judged
  | some verdict =>
      rw [judged] at wrong
      exact reckoned.submit_of_rejected judged (wrong verdict (List.mem_singleton_self _))

/-- As long as nobody starts over and no flag is accepted, the reckoning goes on. -/
theorem Reckoned.play {backend : Backend} {calls : List Call} (goesOn : Call.reset ∉ calls)
    (wrong : ∀ verdict ∈ game.verdicts backend calls, verdict.accepted = false)
    (reckoned : game.timers.now < latest → game.Reckoned backend.config first left rejected)
    (tidy : game.machines.Tidy) (punctual : game.Punctual backend.config) :
    ((game.play backend calls).timers.now < latest →
        (game.play backend calls).Reckoned backend.config first left
          (rejected + (game.verdicts backend calls).length)) ∧
      (game.play backend calls).machines.Tidy ∧
      (game.play backend calls).Punctual backend.config := by
  induction calls generalizing game rejected with
  | nil => exact ⟨reckoned, tidy, punctual⟩
  | cons call rest ih =>
      rw [List.mem_cons, not_or] at goesOn
      rw [verdicts, List.forall_mem_append] at wrong
      have kept : (game.call backend call).timers.now < latest →
          (game.call backend call).Reckoned backend.config first left
            (rejected + (game.verdictOf? backend call).toList.length) := by
        intro early
        cases call with
        | submit line =>
            rw [Game.call, now_submit] at early
            exact (reckoned early).submit line wrong.1
        | tick elapsed =>
            rw [Game.call, now_tick backend.config elapsed punctual.clock] at early
            have before := Nat.lt_of_le_of_lt (le_later punctual.clock elapsed) early
            exact (reckoned before).tick elapsed tidy punctual early
        | reset => exact absurd rfl goesOn.1
      have next := ih goesOn.2 wrong.2 kept (tidy_handle backend game (.call call) tidy)
        (punctual_call call punctual tidy)
      rw [Nat.add_assoc, ← List.length_append] at next
      exact next

/-- When all that is due has fired, the countdown is told by the clock and the verdicts. -/
theorem Reckoned.countdown_tick (elapsed : Nat) (positive : 0 < config.countdown.tickMs)
    (reckoned : game.timers.now < latest → game.Reckoned config first left rejected)
    (tidy : game.machines.Tidy) (punctual : game.Punctual config)
    (early : (game.tick config elapsed).timers.now < latest) :
    (game.tick config elapsed).countdown =
      if rejected * config.countdown.penaltySecs +
          instants first config.countdown.tickMs (game.tick config elapsed).timers.now < left then
        ⟨true, left - (rejected * config.countdown.penaltySecs +
          instants first config.countdown.tickMs (game.tick config elapsed).timers.now), false⟩
      else .spent := by
  have nothing := Timers.pop?_eq_none_iff.1
    (step?_eq_none_iff.1 (step?_runDue config (later game.timers.now elapsed) game))
  have moved := now_tick config elapsed punctual.clock
  rw [moved] at early
  have before := Nat.lt_of_le_of_lt (le_later punctual.clock elapsed) early
  cases (reckoned before).tick elapsed tidy punctual early with
  | running passed runs some sum reached awaited =>
      obtain ⟨entry, member, -, due⟩ := awaited
      have late := nothing entry member
      rw [due, ← moved] at late
      simp only [later] at late
      have exactly := instants_eq positive reached (by omega)
      rw [exactly, if_pos (by omega), runs]
      congr 1
      omega
  | ended passed spent enough reached =>
      have least := le_instants positive reached
      rw [if_neg (by omega), spent]

/--
The countdown keeps to its reckoning.  Whatever has been done to a game whose countdown runs, if
from then on nobody starts over and no flag is accepted, every time that passes leaves what the
rejected flags and the instants up to now have left, or a countdown that has exploded if they have
left nothing.
-/
theorem countdown_tick_of_isRunning {backend : Backend} (valid : backend.config.validate = .ok ())
    (store : σ) :
    ∃ game, start backend.config store = .ok game ∧ ∀ handlings next calls elapsed,
      let before := game.handleAll backend handlings
      let after := (before.play backend calls).tick backend.config elapsed
      let verdicts := before.verdicts backend calls
      let lost := verdicts.length * backend.config.countdown.penaltySecs +
        instants next.due backend.config.countdown.tickMs after.timers.now
      before.countdown.isRunning = true → next ∈ before.timers.pending → next.event = .second →
        Call.reset ∉ calls → (∀ verdict ∈ verdicts, verdict.accepted = false) →
        after.timers.now < latest →
        after.countdown =
          if lost < before.countdown.timeLeft then ⟨true, before.countdown.timeLeft - lost, false⟩
          else .spent := by
  obtain ⟨game, started, kept⟩ := exists_start_tidy valid store
  have proper := proper_start started
  refine ⟨game, started, fun handlings next calls elapsed => ?_⟩
  obtain ⟨tidy, punctual⟩ := kept handlings
  have played := handleAll_preserves (fun game : Game σ => game.countdown.Proper)
    (fun game handling => proper_handle backend game handling) handlings proper
  intro before after verdicts lost runs member second goesOn wrong early
  obtain ⟨running, positive⟩ := played.eq_of_isRunning runs
  have begins : before.Reckoned backend.config next.due before.countdown.timeLeft 0 := by
    have nothing : 0 * backend.config.countdown.penaltySecs + 0 = 0 := by rw [Nat.zero_mul]
    refine .running 0 running positive (by rw [nothing, Nat.add_zero])
      (fun count none => absurd none (Nat.not_lt_zero count)) ⟨next, member, second, ?_⟩
    have bounded := punctual.due_le_latest member
    rw [Nat.zero_mul, later, Nat.add_zero, Nat.min_eq_left bounded]
  obtain ⟨reckoned, tidy, punctual⟩ := Reckoned.play goesOn wrong (fun _ => begins) tidy punctual
  rw [Nat.zero_add] at reckoned
  exact Reckoned.countdown_tick elapsed (Config.validate_eq_ok_iff.1 valid).1 reckoned tidy punctual
    early

def guesses : List Call :=
  [.submit "submit y", .tick 1500, .submit "submit z", .submit "x"]

/-- After a wrong flag, two further ones and two seconds leave 238 of the 300 seconds. -/
theorem countdown_tick_of_isRunning_guesses :
    standardBackend.config.validate = .ok () ∧
      ∃ game, start standardBackend.config (⟨[]⟩ : MemoryStore) = .ok game ∧
        let before := game.handleAll standardBackend [.call (.submit "submit x")]
        let after := (before.play standardBackend guesses).tick standardBackend.config 1000
        before.countdown.isRunning = true ∧ ⟨0, 1000, .second⟩ ∈ before.timers.pending ∧
          Call.reset ∉ guesses ∧
          before.verdicts standardBackend guesses = [⟨false, none⟩, ⟨false, none⟩] ∧
          after.timers.now < latest ∧ after.countdown = ⟨true, 238, false⟩ := by
  obtain ⟨game, started, reckoning⟩ :=
    @countdown_tick_of_isRunning MemoryStore _ standardBackend rfl ⟨[]⟩
  have computed : (start standardBackend.config (⟨[]⟩ : MemoryStore)).toOption.map (fun game =>
      let before := game.handleAll standardBackend [.call (.submit "submit x")]
      let after := (before.play standardBackend guesses).tick standardBackend.config 1000
      (before.countdown, before.timers.pending, before.verdicts standardBackend guesses,
        after.timers.now)) =
      some (⟨true, 300, false⟩, [⟨0, 1000, .second⟩], [⟨false, none⟩, ⟨false, none⟩], 2500) := by
    decide +kernel
  rw [started] at computed
  simp only [Except.toOption, Option.map_some, Option.some.injEq, Prod.mk.injEq] at computed
  obtain ⟨countdown, pending, verdicts, now⟩ := computed
  have runs : (game.handleAll standardBackend
      [.call (.submit "submit x")]).countdown.isRunning = true := by
    rw [countdown]
    rfl
  have member : (⟨0, 1000, .second⟩ : Pending GameEvent) ∈ (game.handleAll standardBackend
      [.call (.submit "submit x")]).timers.pending := by
    rw [pending]
    exact List.mem_singleton_self _
  have goesOn : Call.reset ∉ guesses := by decide
  have early : 2500 < latest := by decide
  have left := reckoning [.call (.submit "submit x")] ⟨0, 1000, .second⟩ guesses 1000 runs member
    rfl goesOn (by rw [verdicts]; decide) (now ▸ early)
  rw [verdicts, now, countdown] at left
  exact ⟨rfl, game, started, runs, member, goesOn, verdicts, now ▸ early, left⟩

end Game

end PuzzleShell

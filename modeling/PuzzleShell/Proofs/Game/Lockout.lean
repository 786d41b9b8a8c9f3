import PuzzleShell.Proofs.Command.Attempt
import PuzzleShell.Proofs.Game.Identity
import PuzzleShell.Proofs.Game.Row

/-!
# Failed attempts in a row

Failed attempts at becoming someone else are counted over everything that is done to a game, until a
login succeeds or the game is started over.  The session keeps the remainder of that number by the
most that are allowed, so it never gets near the end of its range, and the notice is shown just
when there is no remainder.
-/

namespace PuzzleShell

def Attempt.countAfter (count : Nat) : Option Attempt → Nat
  | some .failed => count + 1
  | some .loggedIn => 0
  | none => count

/-- Attempts in a row leave the remainder of their number, and none remains at the notice. -/
theorem Session.recordFailure_eq {session : Session} {count most : Nat} (small : most < 1 <<< 32)
    (counted : session.escalationFailures = count % max 1 most) :
    session.recordFailure most =
      (decide (max 1 most ∣ count + 1),
        { session with escalationFailures := (count + 1) % max 1 most }) := by
  have positive : 0 < max 1 most := Nat.lt_of_lt_of_le Nat.zero_lt_one (Nat.le_max_left _ _)
  have below := Nat.mod_lt count positive
  have fits : session.escalationFailures + 1 < 1 <<< 32 := by
    have room : (1 : Nat) < 1 <<< 32 := by decide
    omega
  have next := Nat.mod_add_mod count (max 1 most) 1
  rw [← counted] at below next
  rw [recordFailure, Session.nextCount_of_lt fits]
  by_cases full : most ≤ session.escalationFailures + 1
  · have whole : session.escalationFailures + 1 = max 1 most := by omega
    rw [whole, Nat.mod_self] at next
    rw [if_pos full, ← next, decide_eq_true (Nat.dvd_of_mod_eq_zero next.symm)]
  · have part : session.escalationFailures + 1 < max 1 most := by omega
    rw [Nat.mod_eq_of_lt part] at next
    have remains : ¬ max 1 most ∣ count + 1 := by
      rw [Nat.dvd_iff_mod_eq_zero, ← next]
      exact Nat.succ_ne_zero _
    rw [if_neg full, ← next, decide_eq_false remains]

namespace Game

variable {σ : Type} {config : Config} {backend : Backend} {game : Game σ} {count : Nat}

def attempt? (config : Config) (game : Game σ) (line : String) : Option Attempt :=
  if game.inputEnabled then Registry.attempt? config game.turn line else none

variable [Store σ]

def failedAfter (backend : Backend) (game : Game σ) (count : Nat) : Handling → Nat
  | .call (.submit line) => Attempt.countAfter count (game.attempt? backend.config line)
  | .call .reset => 0
  | .call (.tick _) | .shutdown => count

/-- The number of failed attempts in a row after several handlings, where it was `count` before. -/
def failed (backend : Backend) (count : Nat) (game : Game σ) : List Handling → Nat
  | [] => count
  | handling :: rest =>
      (game.handle backend handling).failed backend (game.failedAfter backend count handling) rest

/-- A session that keeps the remainder of the number of failed attempts. -/
def Tallies (most count : Nat) (game : Game σ) : Prop :=
  game.session.escalationFailures = count % max 1 most

/-- What a timer does to the player is no attempt. -/
theorem failures_fire (config : Config) (game : Game σ) (event : GameEvent) :
    (game.fire config event).session.escalationFailures = game.session.escalationFailures := by
  cases event with
  | phaseOver =>
      cases elapsed : game.collapse.phase.next? .holdElapsed with
      | none => simp only [fire, Collapse.takeTimer, Collapse.fire, elapsed]
      | some phase =>
          rw [fire_phaseOver elapsed, session_enterPhase]
          split <;> rfl
  | second => rw [(sets_fire_second config .normal game).session]
  | enterDeep =>
      simp only [fire, say, Session.enterDeep]
      split <;> rfl
  | leaveDeep =>
      simp only [fire, say, Session.leaveDeep]
      split <;> rfl

theorem failures_tick (config : Config) (game : Game σ) (elapsed : Nat) :
    (game.tick config elapsed).session.escalationFailures = game.session.escalationFailures := by
  refine @runDue_preserves σ game _ config (later game.timers.now elapsed)
    (fun after => after.session.escalationFailures = game.session.escalationFailures) ?_ rfl
  intro before after stepped same
  obtain ⟨entry, timers, -, rfl⟩ := step?_eq_some_iff.1 stepped
  rw [failures_fire, ← same]

/-- What a line does to the count is told by the attempt that it makes. -/
theorem failures_submit (backend : Backend) (game : Game σ) (line : String) :
    (game.submit backend line).game.session.escalationFailures =
      match game.attempt? backend.config line with
      | some .failed =>
          (game.session.recordFailure backend.config.maxFailures).2.escalationFailures
      | some .loggedIn => 0
      | none => game.session.escalationFailures := by
  by_cases enabled : game.inputEnabled = true
  · obtain ⟨shown, sets⟩ := exists_sets_submit backend line .normal enabled
    rw [sets.session, session_worked, attempt?, if_pos enabled]
    exact Registry.failures_submit game.session.layer backend line game.turn
  · rw [submit_of_not_inputEnabled (Bool.not_eq_true _ ▸ enabled), attempt?, if_neg enabled]

theorem Tallies.submit (tallies : game.Tallies backend.config.maxFailures count)
    (small : backend.config.maxFailures < 1 <<< 32) (line : String) :
    (game.submit backend line).game.Tallies backend.config.maxFailures
      (Attempt.countAfter count (game.attempt? backend.config line)) := by
  rw [Tallies, failures_submit, Session.recordFailure_eq small tallies]
  cases game.attempt? backend.config line with
  | none => exact tallies
  | some attempt =>
      cases attempt with
      | failed => rfl
      | loggedIn => exact (Nat.zero_mod _).symm

theorem Tallies.handle (tallies : game.Tallies backend.config.maxFailures count)
    (small : backend.config.maxFailures < 1 <<< 32) (handling : Handling) :
    (game.handle backend handling).Tallies backend.config.maxFailures
      (game.failedAfter backend count handling) := by
  cases handling with
  | shutdown => exact tallies
  | call call =>
      cases call with
      | submit line => exact tallies.submit small line
      | tick elapsed => exact (failures_tick backend.config game elapsed).trans tallies
      | reset => exact (Nat.zero_mod _).symm

theorem Tallies.handleAll (tallies : game.Tallies backend.config.maxFailures count)
    (small : backend.config.maxFailures < 1 <<< 32) (handlings : List Handling) :
    (game.handleAll backend handlings).Tallies backend.config.maxFailures
      (game.failed backend count handlings) := by
  induction handlings generalizing game count with
  | nil => exact tallies
  | cons handling rest ih => exact ih (tallies.handle small handling)

omit [Store σ] in
/-- The count is below the most that are allowed, so one more fits. -/
theorem Tallies.fits {most : Nat} (tallies : game.Tallies most count) (small : most < 1 <<< 32) :
    game.session.escalationFailures + 1 < 1 <<< 32 := by
  have room : (1 : Nat) < 1 <<< 32 := by decide
  have positive : 0 < max 1 most := Nat.lt_of_lt_of_le Nat.zero_lt_one (Nat.le_max_left _ _)
  have below := Nat.mod_lt count positive
  rw [← tallies] at below
  omega

omit [Store σ] in
/-- The answer to a failed attempt. -/
theorem Tallies.answer (tallies : game.Tallies backend.config.maxFailures count)
    (small : backend.config.maxFailures < 1 <<< 32) {line : String} {tool : Tool}
    (active : game.tool = some tool)
    (failed : game.attempt? backend.config line = some .failed) :
    (game.typed backend line).1 =
      .text (if max 1 backend.config.maxFailures ∣ count + 1 then
        tool.refusal ++ "\n" ++ Tool.lockoutNotice else tool.refusal) := by
  have active : game.turn.tool = some tool := active
  have made : tool.attempt? backend.config game.turn.session.user line = some .failed := by
    unfold attempt? at failed
    split at failed
    · rw [Registry.attempt?, active, Option.bind_some] at failed
      exact failed
    · cases failed
  rw [typed, Registry.submit_of_failed _ active made, turn,
    Session.recordFailure_eq small tallies]
  simp

/--
The count of failed attempts is exact.  Whatever has been done to a game, the session keeps the
remainder of the number of failed attempts since the last login or the last start by the most that
are allowed, so there is always room for one more.  A failed attempt is answered with the notice
just if it makes that number a multiple of the most, and a line that is no attempt changes nothing.
-/
theorem failures_counted {backend : Backend} (valid : backend.config.validate = .ok ())
    (small : backend.config.maxFailures < 1 <<< 32) (store : σ) :
    ∃ game, start backend.config store = .ok game ∧ ∀ handlings,
      let played := game.handleAll backend handlings
      let count := game.failed backend 0 handlings
      let most := max 1 backend.config.maxFailures
      played.session.escalationFailures = count % most ∧
        played.session.escalationFailures + 1 < 1 <<< 32 ∧
        ∀ line,
          (∀ tool, played.tool = some tool →
            played.attempt? backend.config line = some .failed →
              (played.typed backend line).1 =
                .text (if most ∣ count + 1 then tool.refusal ++ "\n" ++ Tool.lockoutNotice
                  else tool.refusal)) ∧
            (played.attempt? backend.config line = none →
              (played.submit backend line).game.session.escalationFailures =
                played.session.escalationFailures) := by
  obtain ⟨game, started, -⟩ := exists_start valid store
  have fresh : game.Tallies backend.config.maxFailures 0 := by
    rw [Tallies, (opened_start started).session]
    exact (Nat.zero_mod _).symm
  refine ⟨game, started, fun handlings => ?_⟩
  have tallies := fresh.handleAll small handlings
  refine ⟨tallies, tallies.fits small, fun line => ⟨fun tool active failed => ?_, fun other => ?_⟩⟩
  · exact tallies.answer small active failed
  · rw [failures_submit, other]

/--
An attempt that fails before a login does not count any more after it.  Two blunders follow, with
lines in between that are no attempts, before another password is asked for.
-/
def knocking : List Handling :=
  [.call (.submit "login operator"), .call (.submit "x"), .call (.submit "login operator"),
    .call (.submit "Tr0ub4dor&3"), .call (.submit "login"), .call (.submit " "), .shutdown,
    .call (.submit "x"), .call (.submit "ssh 10.13.37.7"), .call (.submit ""),
    .call (.tick 1000), .call (.submit "sudo ls"), .call (.submit "Tr0ub4dor&3"),
    .call (.submit "sudo ls")]

theorem failures_counted_knocking :
    standardBackend.config.validate = .ok () ∧
      standardBackend.config.maxFailures < 1 <<< 32 ∧
      ∃ game, start standardBackend.config (⟨[]⟩ : MemoryStore) = .ok game ∧
        game.failed standardBackend 0 knocking = 2 ∧
        (game.handleAll standardBackend knocking).session.escalationFailures = 2 ∧
        ((game.handleAll standardBackend knocking).typed standardBackend "operator").1 =
          .text ("Sorry, try again.\n" ++ Tool.lockoutNotice) := by
  obtain ⟨game, started, counted⟩ :=
    @failures_counted MemoryStore _ standardBackend rfl (by decide) ⟨[]⟩
  have computed : (start standardBackend.config (⟨[]⟩ : MemoryStore)).toOption.map (fun game =>
      (game.failed standardBackend 0 knocking, (game.handleAll standardBackend knocking).tool,
        (game.handleAll standardBackend knocking).attempt? standardBackend.config "operator")) =
        some (2, some (.sudoPassword "ls"), some .failed) := by
    decide +kernel
  rw [started] at computed
  simp only [Except.toOption, Option.map_some, Option.some.injEq, Prod.mk.injEq] at computed
  obtain ⟨two, active, failed⟩ := computed
  obtain ⟨remainder, -, answered⟩ := counted knocking
  have answer := (answered "operator").1 _ active failed
  rw [two] at remainder answer
  exact ⟨rfl, by decide, game, started, two, remainder, answer⟩

end Game

end PuzzleShell

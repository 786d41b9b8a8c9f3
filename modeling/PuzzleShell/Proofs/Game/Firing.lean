import PuzzleShell.Game.Clock
import PuzzleShell.Proofs.Timers

/-!
# The timers that fire while time passes

Time passes by letting timers fire, one after another, until none is due any more, and by moving
the clock on.  There is an end to the firing in every game.  Where the time is cut into pieces makes
no difference: what fires in the first piece is what would have fired first, and the clock that is
moved on in between is moved on anyway by whatever fires next.
-/

namespace PuzzleShell

/-- A delay after another one, counted from a clock that has not run ahead of the first. -/
theorem later_max_later {now ran first : Nat} (notAhead : ran ≤ max now (later now first))
    (second : Nat) :
    later (max ran (later now first)) second = later now (min (first + second) latest) := by
  simp only [later] at *
  omega

theorem later_le_later_min (now first second : Nat) :
    later now first ≤ later now (min (first + second) latest) := by
  simp only [later]
  omega

namespace Game

variable {σ : Type}

/-- The game with its clock moved on to a time; nothing fires. -/
def advanceTo (game : Game σ) (time : Nat) : Game σ :=
  { game with timers := game.timers.advanceTo time }

theorem advanceTo_advanceTo {time bound : Nat} (le : time ≤ bound) (game : Game σ) :
    (game.advanceTo time).advanceTo bound = game.advanceTo bound := by
  simp only [advanceTo, Timers.advanceTo, Nat.max_assoc, Nat.max_eq_right le]

theorem now_cancelSecond (game : Game σ) : game.cancelSecond.timers.now = game.timers.now := by
  unfold cancelSecond
  split <;> rfl

theorem now_enterPhase (config : Config) (game : Game σ) (phase : Phase) :
    (game.enterPhase config phase).timers.now = game.timers.now := by
  cases phase <;> rfl

variable [Store σ] {config : Config} {game next last : Game σ} {target bound count : Nat}

/-- Nothing that fires moves the clock; only its time does. -/
theorem now_fire (config : Config) (game : Game σ) (event : GameEvent) :
    (game.fire config event).timers.now = game.timers.now := by
  cases event with
  | phaseOver =>
      simp only [fire]
      split
      · exact now_enterPhase config _ _
      · rfl
  | second =>
      simp only [fire, saveCountdown]
      split
      · exact now_cancelSecond _
      · exact now_cancelSecond _
      · rfl
  | enterDeep => rfl
  | leaveDeep => rfl

theorem step?_eq_some_iff :
    game.step? config target = some next ↔
      ∃ entry timers, game.timers.pop? target = some (entry, timers) ∧
        { game with timers := timers }.fire config entry.event = next := by
  rw [step?]
  constructor
  · intro stepped
    split at stepped
    · cases stepped
    next entry timers popped => exact ⟨entry, timers, popped, Option.some.inj stepped⟩
  · rintro ⟨entry, timers, popped, rfl⟩
    rw [popped]

theorem step?_eq_none_iff :
    game.step? config target = none ↔ game.timers.pop? target = none := by
  rw [step?]
  split
  next nothing => exact iff_of_true rfl nothing
  next popped => simp [popped]

/-- More time does not change what fires next. -/
theorem step?_of_le (le : target ≤ bound) (stepped : game.step? config target = some next) :
    game.step? config bound = some next := by
  obtain ⟨entry, timers, popped, fired⟩ := step?_eq_some_iff.1 stepped
  exact step?_eq_some_iff.2 ⟨entry, timers, Timers.pop?_of_le le popped, fired⟩

/-- The clock may be moved on, short of everything that is pending, before the next timer fires. -/
theorem step?_advanceTo {time : Nat} (nothing : game.step? config time = none) (target : Nat) :
    (game.advanceTo time).step? config target = game.step? config target := by
  rw [step?, step?, advanceTo, Timers.pop?_advanceTo (step?_eq_none_iff.1 nothing)]

theorem runDue_of_eq_none (finished : game.step? config target = none) :
    game.runDue config target = game := by
  rw [runDue]
  split
  · rfl
  next stepped =>
    rw [finished] at stepped
    cases stepped

theorem runDue_of_eq_some (stepped : game.step? config target = some next) :
    game.runDue config target = next.runDue config target := by
  rw [runDue]
  split
  next finished =>
    rw [stepped] at finished
    cases finished
  next other again =>
    rw [stepped] at again
    cases again
    rfl

/-- When the firing has come to its end, nothing is due. -/
theorem step?_runDue (config : Config) (target : Nat) (game : Game σ) :
    (game.runDue config target).step? config target = none := by
  fun_induction runDue config target game with
  | case1 game finished => exact finished
  | case2 game next stepped ih => exact ih

theorem now_runDue_le (config : Config) (target : Nat) (game : Game σ) :
    (game.runDue config target).timers.now ≤ max game.timers.now target := by
  fun_induction runDue config target game with
  | case1 game finished => exact Nat.le_max_left _ _
  | case2 game next stepped ih =>
      obtain ⟨entry, timers, popped, rfl⟩ := step?_eq_some_iff.1 stepped
      obtain ⟨inTime, moved⟩ := Timers.now_of_pop? popped
      rw [now_fire] at ih
      dsimp only at ih
      omega

/-- Firing up to one time and then up to a later one is firing up to the later one. -/
theorem runDue_runDue (le : target ≤ bound) (game : Game σ) :
    (game.runDue config target).runDue config bound = game.runDue config bound := by
  fun_induction runDue config target game with
  | case1 game finished => rfl
  | case2 game next stepped ih => rw [ih, runDue_of_eq_some (step?_of_le le stepped)]

/-- A clock that is moved on before the firing shows in nothing once it is moved on after it. -/
theorem advanceTo_runDue_advanceTo {time : Nat} (le : time ≤ target)
    (nothing : game.step? config time = none) :
    ((game.advanceTo time).runDue config target).advanceTo target =
      (game.runDue config target).advanceTo target := by
  cases stepped : game.step? config target with
  | none =>
      have finished : (game.advanceTo time).step? config target = none := by
        rw [step?_advanceTo nothing, stepped]
      rw [runDue_of_eq_none finished, runDue_of_eq_none stepped, advanceTo_advanceTo le]
  | some next =>
      have same : (game.advanceTo time).step? config target = some next := by
        rw [step?_advanceTo nothing, stepped]
      rw [runDue_of_eq_some same, runDue_of_eq_some stepped]

theorem tick_eq (config : Config) (game : Game σ) (elapsed : Nat) :
    game.tick config elapsed =
      (game.runDue config (later game.timers.now elapsed)).advanceTo
        (later game.timers.now elapsed) := rfl

/--
Time that passes in two pieces leaves the same game as when it passes at once: the same session and
trees, the same transcript, machines and stored progress, the same clock and the same timers.
-/
theorem tick_tick (config : Config) (game : Game σ) (first second : Nat) :
    (game.tick config first).tick config second =
      game.tick config (min (first + second) latest) := by
  have ended := step?_runDue config (later game.timers.now first) game
  have notAhead := now_runDue_le config (later game.timers.now first) game
  have further := later_le_later_min game.timers.now first second
  have target : later (game.tick config first).timers.now second =
      later game.timers.now (min (first + second) latest) := later_max_later notAhead second
  rw [tick_eq, target, tick_eq config game first, tick_eq]
  generalize later game.timers.now first = soon at *
  generalize later game.timers.now (min (first + second) latest) = late at *
  calc (((game.runDue config soon).advanceTo soon).runDue config late).advanceTo late
      = ((game.runDue config soon).runDue config late).advanceTo late :=
        advanceTo_runDue_advanceTo further ended
    _ = (game.runDue config late).advanceTo late := by rw [runDue_runDue further]

/--
Timers that fire one after another up to a time, each the first that is due, until none is left:
`count` of them fire.
-/
inductive Fires (config : Config) (target : Nat) : Nat → Game σ → Game σ → Prop where
  | done {game : Game σ} (finished : game.step? config target = none) :
      Fires config target 0 game game
  | fire {count : Nat} {game next last : Game σ} (stepped : game.step? config target = some next)
      (rest : Fires config target count next last) : Fires config target (count + 1) game last

/-- Whatever is due, also over and over again at the same time, the firing comes to an end. -/
theorem exists_fires (config : Config) (target : Nat) (game : Game σ) :
    ∃ count last, Fires config target count game last ∧ count ≤ game.workLeft := by
  induction work : game.workLeft using Nat.strongRecOn generalizing game with
  | ind most ih =>
      cases stepped : game.step? config target with
      | none => exact ⟨0, game, .done stepped, Nat.zero_le _⟩
      | some next =>
          have nearer : next.workLeft < most := work ▸ workLeft_step?_lt stepped
          obtain ⟨count, last, rest, atMost⟩ := ih next.workLeft nearer next rfl
          exact ⟨count + 1, last, .fire stepped rest, by omega⟩

theorem Fires.runDue_eq (fires : Fires config target count game last) :
    game.runDue config target = last := by
  induction fires with
  | done finished => exact runDue_of_eq_none finished
  | fire stepped rest ih => rw [runDue_of_eq_some stepped, ih]

/--
Time always finishes passing.  However much of it passes, at most as many timers fire as the
countdown has seconds left, the collapse has phases left and events are pending.
-/
theorem exists_fires_tick (config : Config) (game : Game σ) (elapsed : Nat) :
    ∃ count last,
      Fires config (later game.timers.now elapsed) count game last ∧
      count ≤ secondsLeft game.countdown + game.collapse.phase.remaining +
        game.timers.pending.length ∧
      game.tick config elapsed =
        { last with timers := last.timers.advanceTo (later game.timers.now elapsed) } := by
  obtain ⟨count, last, fires, atMost⟩ := exists_fires config (later game.timers.now elapsed) game
  refine ⟨count, last, fires, atMost, ?_⟩
  rw [tick_eq, fires.runDue_eq]
  rfl

end Game

end PuzzleShell

import PuzzleShell.Proofs.Game.Discipline

/-!
# Time passes in a game

A timer that falls due leaves the machines disciplined, and so does any number of them.
-/

namespace PuzzleShell

theorem Phase.exists_next?_of_ne_normal {phase : Phase} (lasts : phase ≠ .normal) :
    ∃ next, phase.next? .holdElapsed = some next := by
  cases phase with
  | normal => exact absurd rfl lasts
  | systemFailure => exact ⟨_, rfl⟩
  | shattering => exact ⟨_, rfl⟩
  | recovering => exact ⟨_, rfl⟩

/-- A second of a running countdown either passes or is the last one. -/
theorem Countdown.tick_cases {countdown : Countdown} (runs : countdown.isRunning = true) :
    (countdown.tick.1 = .ticked ∧ countdown.tick.2.isRunning = true) ∨
      countdown.tick = (.exploded, spent) := by
  unfold tick
  rw [if_pos runs, shorten]
  split
  · exact Or.inr rfl
  · exact Or.inl ⟨rfl, runs⟩

namespace Game

variable {σ : Type} {game : Game σ} {after : Timers GameEvent}

/-- An event that falls due was pending, and it is not pending again. -/
theorem awaits_pop? {target : Nat} {entry : Pending GameEvent} {timers : Timers GameEvent}
    (disciplined : game.machines.Disciplined)
    (popped : game.timers.pop? target = some (entry, timers)) :
    entry.id ∈ game.timers.waiting entry.event ∧
      Timers.Awaits game.timers timers entry.event [] := by
  obtain ⟨set, taken⟩ := Timers.Awaits.pop? disciplined.wellFormed popped
  rw [filter_ne_eq_nil (disciplined.length_waiting_le entry.event) set] at taken
  exact ⟨set, taken⟩

/-- The end of a phase is only waited for in a phase that ends. -/
theorem isSome_timer_of_mem_waiting {id : Nat} (disciplined : game.machines.Disciplined)
    (set : id ∈ game.timers.waiting .phaseOver) : game.collapse.timer.isSome = true := by
  have awaited : game.timers.waiting .phaseOver = game.collapse.timer.toList :=
    disciplined.phaseOver
  rw [awaited] at set
  exact Option.isSome_iff_exists.2 ⟨_, Option.mem_toList.1 set⟩

theorem exists_next?_of_mem_waiting {id : Nat} (disciplined : game.machines.Disciplined)
    (set : id ∈ game.timers.waiting .phaseOver) :
    ∃ next, game.collapse.phase.next? .holdElapsed = some next := by
  have lasts : decide (game.collapse.phase ≠ .normal) = true :=
    disciplined.lasting.symm.trans (isSome_timer_of_mem_waiting disciplined set)
  exact Phase.exists_next?_of_ne_normal (of_decide_eq_true lasts)

variable [Store σ]

theorem disciplined_fire_phaseOver (config : Config) (disciplined : game.machines.Disciplined)
    (lasts : game.collapse.timer.isSome = true)
    (taken : Timers.Awaits game.timers after .phaseOver []) :
    ({ game with timers := after }.fire config .phaseOver).machines.Disciplined := by
  have lasting := disciplined.lasting.symm.trans lasts
  rw [decide_eq_true_eq] at lasting
  obtain ⟨next, elapsed⟩ := Phase.exists_next?_of_ne_normal lasting
  obtain ⟨timers, timer, busy, entered, awaits, set, idle⟩ :=
    @machines_enterPhase σ { game with timers := after, collapse := ⟨next, none⟩ } config
      taken.wellFormed taken.here rfl next
  rw [machines_collapse] at elapsed
  simp only [fire, Collapse.takeTimer, Collapse.fire, elapsed]
  rw [entered]
  exact disciplined.withPhase (taken.trans awaits) set idle

theorem disciplined_fire_second (config : Config) (disciplined : game.machines.Disciplined)
    (runs : game.countdownTimer.isSome = true)
    (taken : Timers.Awaits game.timers after .second []) :
    ({ game with timers := after }.fire config .second).machines.Disciplined := by
  have running : game.countdown.isRunning = true := disciplined.running.symm.trans runs
  simp only [fire]
  rw [machines_saveCountdown]
  rcases Countdown.tick_cases running with ⟨ticked, still⟩ | exploded
  · obtain ⟨timers, timer, scheduled, awaits⟩ :=
      @machines_scheduleSecond σ
        { game with timers := after, countdownTimer := none, countdown := game.countdown.tick.2 }
        config taken.wellFormed taken.here
    rw [ticked]
    dsimp only
    rw [scheduled]
    exact disciplined.withSecond (taken.trans awaits) still.symm id
  · obtain ⟨timers, ended, awaits⟩ :=
      @machines_detonate σ
        { game with timers := after, countdownTimer := none, countdown := .spent }
        taken.wellFormed taken.here
    rw [exploded]
    dsimp only
    rw [ended]
    exact disciplined.withSecond (taken.trans awaits) rfl fun _ => rfl

theorem disciplined_fire_enterDeep (config : Config) (disciplined : game.machines.Disciplined)
    (standard : game.session.layer = .standard)
    (taken : Timers.Awaits game.timers after .enterDeep []) :
    ({ game with timers := after }.fire config .enterDeep).machines.Disciplined := by
  have entered : ({ game with timers := after }.fire config .enterDeep).machines =
      { game.machines with
        timers := after, layer := .deep, switching := false, parked := true, busy := false } := by
    simp [fire, Session.enterDeep, Session.isDeep, standard, machines, say]
  rw [entered]
  exact disciplined.withLayer taken (Or.inl ⟨rfl, standard⟩)

theorem disciplined_fire_leaveDeep (config : Config) (disciplined : game.machines.Disciplined)
    (deep : game.session.layer = .deep)
    (taken : Timers.Awaits game.timers after .leaveDeep []) :
    ({ game with timers := after }.fire config .leaveDeep).machines.Disciplined := by
  have parked : game.parked.isSome = true :=
    disciplined.parked.trans (decide_eq_true deep)
  obtain ⟨identity, known⟩ := Option.isSome_iff_exists.1 parked
  have left : ({ game with timers := after }.fire config .leaveDeep).machines =
      { game.machines with
        timers := after, layer := .standard, switching := false, parked := false,
        busy := false } := by
    simp [fire, Session.leaveDeep, known, machines, say]
  rw [left]
  exact disciplined.withLayer taken (Or.inr ⟨rfl, deep⟩)

/-- A timer that falls due leaves the machines disciplined, whatever it was set for. -/
theorem disciplined_step? {config : Config} {target : Nat} {next : Game σ}
    (disciplined : game.machines.Disciplined) (stepped : game.step? config target = some next) :
    next.machines.Disciplined := by
  unfold step? at stepped
  split at stepped
  · cases stepped
  next entry timers popped =>
    cases stepped
    obtain ⟨set, taken⟩ := awaits_pop? disciplined popped
    generalize entry.event = event at set taken
    cases event with
    | phaseOver =>
        have lasts := isSome_timer_of_mem_waiting disciplined set
        exact disciplined_fire_phaseOver config disciplined lasts taken
    | second =>
        refine disciplined_fire_second config disciplined ?_ taken
        have awaited : game.timers.waiting .second = game.countdownTimer.toList :=
          disciplined.second
        rw [awaited] at set
        exact Option.isSome_iff_exists.2 ⟨_, Option.mem_toList.1 set⟩
    | enterDeep =>
        have standard := disciplined.standard_of_enterDeep (List.ne_nil_of_mem set)
        exact disciplined_fire_enterDeep config disciplined standard taken
    | leaveDeep =>
        have deep := disciplined.deep_of_leaveDeep (List.ne_nil_of_mem set)
        exact disciplined_fire_leaveDeep config disciplined deep taken

/-- What every timer preserves that falls due holds when all of them have fired. -/
theorem runDue_preserves {config : Config} {target : Nat} (Holds : Game σ → Prop)
    (step : ∀ game next, game.step? config target = some next → Holds game → Holds next)
    (holds : Holds game) : Holds (game.runDue config target) := by
  fun_induction runDue config target game with
  | case1 game finished => exact holds
  | case2 game next stepped ih => exact ih (step game next stepped holds)

theorem disciplined_runDue (config : Config) (target : Nat) (game : Game σ)
    (disciplined : game.machines.Disciplined) :
    (game.runDue config target).machines.Disciplined :=
  runDue_preserves (fun game : Game σ => game.machines.Disciplined)
    (fun _ _ stepped disciplined => disciplined_step? disciplined stepped) disciplined

theorem disciplined_tick (config : Config) (elapsed : Nat)
    (disciplined : game.machines.Disciplined) :
    (game.tick config elapsed).machines.Disciplined := by
  have ran := disciplined_runDue config (later game.timers.now elapsed) game disciplined
  exact ⟨ran.wellFormed.advanceTo _, ran.second, ran.running, ran.phaseOver, ran.lasting,
    ran.enterDeep, ran.leaveDeep, ran.parked, ran.idle⟩

end Game

end PuzzleShell

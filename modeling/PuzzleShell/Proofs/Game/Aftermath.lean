import PuzzleShell.Proofs.Game.Progress
import PuzzleShell.Proofs.Game.Settling
import PuzzleShell.Terminal

/-!
# After the explosion

A countdown that has exploded is spent, and until the game is started over it stays so and every
line is ignored, also if the game is shut down before or afterwards.  The trees stay as they are as
well.  The session does so only if no change of layers was under way: the timer of such a change is
not taken back by the explosion, so it falls due afterwards and moves the player to the other layer.
-/

namespace PuzzleShell

namespace Session

variable (shell : ShellSettings) (parked : Option Identity) (session : Session)

def withoutStreak : Session :=
  { session with unknownStreak := 0 }

/-- The session on the other side of a change of layers. -/
def arrival : Session :=
  match session.layer with
  | .standard => (session.enterDeep shell parked).1
  | .deep => (session.leaveDeep parked).1

theorem withoutStreak_arrival :
    (session.arrival shell parked).withoutStreak =
      session.withoutStreak.arrival shell parked := by
  obtain ⟨user, cwd, layer, solved, streak, failures⟩ := session
  cases layer <;> cases parked <;> rfl

theorem solved_arrival : (session.arrival shell parked).solved = session.solved := by
  obtain ⟨user, cwd, layer, solved, streak, failures⟩ := session
  cases layer <;> cases parked <;> rfl

/-- The other side is another layer, if there is an identity to come back to. -/
theorem layer_arrival_ne (identity : session.layer = .deep → parked.isSome = true) :
    (session.arrival shell parked).layer ≠ session.layer := by
  obtain ⟨user, cwd, layer, solved, streak, failures⟩ := session
  cases layer with
  | standard => exact Layer.noConfusion
  | deep =>
      cases parked with
      | none => cases identity rfl
      | some known => exact Layer.noConfusion

end Session

namespace Game

variable {σ : Type} {config : Config} {explosion game next : Game σ} {target : Nat}

structure Quiet (game next : Game σ) : Prop where
  countdown : next.countdown = game.countdown
  standardTree : next.standardTree = game.standardTree
  deepTree : next.deepTree = game.deepTree
  parked : next.parked = game.parked
  switching : next.switching = game.switching
  session : next.session.withoutStreak = game.session.withoutStreak

theorem quiet_enterPhase (config : Config) (game : Game σ) (phase : Phase) :
    Quiet game (game.enterPhase config phase) := by
  cases phase <;> simp only [enterPhase, Phase.holdMs?, say] <;>
    exact ⟨rfl, rfl, rfl, rfl, rfl, rfl⟩

/-- The end of a game takes back what is pending, and nothing else that is kept quiet. -/
theorem quiet_shutdown (game : Game σ) : Quiet game game.shutdown :=
  ⟨rfl, rfl, rfl, rfl, rfl, rfl⟩

structure Aftermath (shell : ShellSettings) (explosion game : Game σ) : Prop where
  countdown : game.countdown = .spent
  standardTree : game.standardTree = explosion.standardTree
  deepTree : game.deepTree = explosion.deepTree
  solved : game.session.solved = explosion.session.solved
  /-- The player stays who and where they were, or a change of layers is carried out. -/
  player :
    game.switching = explosion.switching ∧ game.parked = explosion.parked ∧
        game.session.withoutStreak = explosion.session.withoutStreak ∨
      explosion.switching = true ∧ game.switching = false ∧
        game.session.withoutStreak =
          (explosion.session.arrival shell explosion.parked).withoutStreak

namespace Aftermath

theorem refl (shell : ShellSettings) (spent : explosion.countdown = .spent) :
    Aftermath shell explosion explosion :=
  ⟨spent, rfl, rfl, rfl, Or.inl ⟨rfl, rfl, rfl⟩⟩

theorem quiet {shell : ShellSettings} (aftermath : Aftermath shell explosion game)
    (quiet : Quiet game next) : Aftermath shell explosion next where
  countdown := quiet.countdown.trans aftermath.countdown
  standardTree := quiet.standardTree.trans aftermath.standardTree
  deepTree := quiet.deepTree.trans aftermath.deepTree
  solved := (congrArg Session.solved quiet.session).trans aftermath.solved
  player := by
    rw [quiet.switching, quiet.parked, quiet.session]
    exact aftermath.player

/-- A change of layers that was under way at the explosion comes to its end. -/
theorem arrive {shell : ShellSettings} (aftermath : Aftermath shell explosion game)
    (under : game.switching = true) (countdown : next.countdown = game.countdown)
    (standardTree : next.standardTree = game.standardTree)
    (deepTree : next.deepTree = game.deepTree) (arrived : next.switching = false)
    (session : next.session = game.session.arrival shell game.parked) :
    Aftermath shell explosion next := by
  refine ⟨countdown.trans aftermath.countdown, standardTree.trans aftermath.standardTree,
    deepTree.trans aftermath.deepTree, ?_, ?_⟩
  · rw [session, Session.solved_arrival]
    exact aftermath.solved
  · rcases aftermath.player with ⟨same, parked, stayed⟩ | ⟨-, done, -⟩
    · refine Or.inr ⟨same.symm.trans under, arrived, ?_⟩
      rw [session, parked, Session.withoutStreak_arrival, stayed, ← Session.withoutStreak_arrival]
    · rw [under] at done
      cases done

/-- Without a change of layers that was under way, the player is not concerned. -/
theorem withoutStreak_eq {shell : ShellSettings}
    (aftermath : Aftermath shell explosion game) (still : explosion.switching = false) :
    game.session.withoutStreak = explosion.session.withoutStreak := by
  rcases aftermath.player with ⟨-, -, stayed⟩ | ⟨under, -, -⟩
  · exact stayed
  · rw [still] at under
    cases under

/-- A change of layers that was under way is over some time later. -/
theorem layer_ne {shell : ShellSettings} (aftermath : Aftermath shell explosion game)
    (disciplined : explosion.machines.Disciplined) (under : explosion.switching = true)
    (still : game.switching = false) : game.session.layer ≠ explosion.session.layer := by
  have identity : explosion.session.layer = .deep → explosion.parked.isSome = true :=
    fun deep => disciplined.orderly.deep.1 deep
  rcases aftermath.player with ⟨same, -, -⟩ | ⟨-, -, arrived⟩
  · rw [still, under] at same
    cases same
  · have layer := congrArg Session.layer arrived
    simp only [Session.withoutStreak] at layer
    rw [layer]
    exact Session.layer_arrival_ne _ _ _ identity

end Aftermath

variable [Store σ]

theorem quiet_fire_phaseOver (config : Config) (game : Game σ) :
    Quiet game (game.fire config .phaseOver) := by
  simp only [fire]
  split
  next phase collapse elapsed =>
    have entered := quiet_enterPhase config { game with collapse := collapse } phase
    exact ⟨entered.countdown, entered.standardTree, entered.deepTree, entered.parked,
      entered.switching, entered.session⟩
  · exact ⟨rfl, rfl, rfl, rfl, rfl, rfl⟩

/-- A second that passes is nothing to a countdown that is spent. -/
theorem quiet_fire_second (config : Config) (spent : game.countdown = .spent) :
    Quiet game (game.fire config .second) := by
  have idle : Countdown.spent.tick = (.unchanged, .spent) := rfl
  simp only [fire, spent, idle, saveCountdown]
  exact ⟨spent.symm, rfl, rfl, rfl, rfl, rfl⟩

/-- The way out of the player's layer leads to the other side. -/
theorem Aftermath.fire_wayOut {layer : Layer} (aftermath : Aftermath config.shell explosion game)
    (leaving : game.machines.leaving? = some layer) :
    Aftermath config.shell explosion (game.fire config layer.wayOut) := by
  obtain ⟨under, here⟩ := Machines.leaving?_eq_some_iff.1 leaving
  rw [machines_layer] at here
  cases layer with
  | standard | deep =>
      refine aftermath.arrive under rfl rfl rfl rfl ?_
      simp only [Layer.wayOut, fire, say, Session.arrival, here]

/-- Whatever falls due after an explosion, only a change of layers concerns the player. -/
theorem Aftermath.step? (aftermath : Aftermath config.shell explosion game)
    (tidy : game.machines.Tidy) (stepped : game.step? config target = some next) :
    Aftermath config.shell explosion next := by
  obtain ⟨entry, timers, popped, rfl⟩ := step?_eq_some_iff.1 stepped
  obtain ⟨set, -⟩ := tidy_pop? tidy popped
  have taken : Aftermath config.shell explosion { game with timers := timers } :=
    aftermath.quiet ⟨rfl, rfl, rfl, rfl, rfl, rfl⟩
  generalize entry.event = event at set ⊢
  cases event with
  | phaseOver => exact taken.quiet (quiet_fire_phaseOver config _)
  | second => exact taken.quiet (quiet_fire_second config aftermath.countdown)
  | enterDeep => exact @fire_wayOut _ _ _ _ _ .standard taken (tidy.leaving?_of_mem set)
  | leaveDeep => exact @fire_wayOut _ _ _ _ _ .deep taken (tidy.leaving?_of_mem set)

theorem Aftermath.runDue (target : Nat) (aftermath : Aftermath config.shell explosion game)
    (tidy : game.machines.Tidy) :
    Aftermath config.shell explosion (game.runDue config target) := by
  fun_induction Game.runDue config target game with
  | case1 game finished => exact aftermath
  | case2 game next stepped ih => exact ih (aftermath.step? tidy stepped) (tidy_step? tidy stepped)

theorem Aftermath.tick (elapsed : Nat) (aftermath : Aftermath config.shell explosion game)
    (tidy : game.machines.Tidy) :
    Aftermath config.shell explosion (game.tick config elapsed) :=
  (aftermath.runDue (later game.timers.now elapsed) tidy).quiet ⟨rfl, rfl, rfl, rfl, rfl, rfl⟩

theorem Aftermath.submit {shell : ShellSettings} (aftermath : Aftermath shell explosion game)
    (backend : Backend) (line : String) : game.submit backend line = ⟨false, [], game⟩ := by
  apply submit_of_not_inputEnabled
  unfold inputEnabled
  rw [aftermath.countdown, Countdown.spent, Bool.not_true, Bool.and_false, Bool.false_and]

/-- As long as the game is not started over, everything after an explosion is its aftermath. -/
theorem Aftermath.handleAll {backend : Backend} {handlings : List Handling}
    (goesOn : .call .reset ∉ handlings) (aftermath : Aftermath backend.config.shell explosion game)
    (tidy : game.machines.Tidy) :
    Aftermath backend.config.shell explosion (game.handleAll backend handlings) := by
  induction handlings generalizing game with
  | nil => exact aftermath
  | cons handling rest ih =>
      rw [List.mem_cons, not_or] at goesOn
      refine ih goesOn.2 ?_ (tidy_handle backend game handling tidy)
      cases handling with
      | shutdown => exact aftermath.quiet (quiet_shutdown game)
      | call call =>
          cases call with
          | submit line =>
              rw [handle, Game.call, aftermath.submit]
              exact aftermath
          | tick elapsed => exact aftermath.tick elapsed tidy
          | reset => exact absurd rfl goesOn.1

theorem Aftermath.play {backend : Backend} {calls : List Call} (goesOn : Call.reset ∉ calls)
    (aftermath : Aftermath backend.config.shell explosion game) (tidy : game.machines.Tidy) :
    Aftermath backend.config.shell explosion (game.play backend calls) := by
  rw [← handleAll_map_call]
  exact aftermath.handleAll (by simpa using goesOn) tidy

/-- The player is left alone by all that follows just if no change of layers was under way. -/
theorem stays_iff_of_aftermath {backend : Backend}
    (begins : Aftermath backend.config.shell explosion explosion)
    (disciplined : explosion.machines.Disciplined) (punctual : explosion.Punctual backend.config) :
    (∀ later, Call.reset ∉ later →
        (explosion.play backend later).session.withoutStreak = explosion.session.withoutStreak) ↔
      explosion.switching = false := by
  constructor
  · intro stays
    by_contra under
    rw [Bool.not_eq_false] at under
    -- By then the change of layers has been carried out.
    have onwards : Call.reset ∉ [Call.tick (min backend.config.settlingMs latest)] := by simp
    have settled := settled_tick punctual disciplined
    have moved := (begins.play onwards disciplined.tidy).layer_ne disciplined under settled.1
    have stayed := congrArg Session.layer (stays _ onwards)
    exact moved stayed
  · intro still later onwards
    exact (begins.play onwards disciplined.tidy).withoutStreak_eq still

/--
After an explosion the countdown is spent for as long as the game is not started over, every line is
ignored, and the trees and the solved challenges stay as they are; it does not matter whether the
game is shut down before or afterwards.  Of a game that is played, the player stays who and where
they were in all that follows if and only if no change of layers was under way; otherwise that
change is still carried out.
-/
theorem aftermath_of_exploded {backend : Backend} (valid : backend.config.validate = .ok ())
    (store : σ) :
    ∃ game, start backend.config store = .ok game ∧
      (∀ handlings explosion, game.handleAll backend handlings = explosion →
        explosion.countdown.exploded = true → ∀ later, .call .reset ∉ later →
          Aftermath backend.config.shell explosion (explosion.handleAll backend later) ∧
            ∀ line, (explosion.handleAll backend later).submit backend line =
              ⟨false, [], explosion.handleAll backend later⟩) ∧
      ∀ calls explosion, game.play backend calls = explosion →
        explosion.countdown.exploded = true →
          ((∀ later, Call.reset ∉ later →
              (explosion.play backend later).session.withoutStreak =
                explosion.session.withoutStreak) ↔
            explosion.switching = false) := by
  obtain ⟨game, started, kept⟩ := exists_start_punctual valid store
  have proper := proper_start started
  have begins : ∀ handlings, (game.handleAll backend handlings).countdown.exploded = true →
      Aftermath backend.config.shell (game.handleAll backend handlings)
        (game.handleAll backend handlings) := by
    intro handlings exploded
    have spent := (handleAll_preserves (fun game : Game σ => game.countdown.Proper)
      (proper_handle backend) handlings proper).eq_spent exploded
    exact .refl backend.config.shell spent
  refine ⟨game, started, ?_, ?_⟩
  · rintro handlings explosion rfl exploded later onwards
    have tidy := handleAll_preserves (fun game : Game σ => game.machines.Tidy)
      (tidy_handle backend) handlings (kept []).1.tidy
    have goesOn := (begins handlings exploded).handleAll onwards tidy
    exact ⟨goesOn, goesOn.submit backend⟩
  · rintro calls explosion rfl exploded
    obtain ⟨disciplined, punctual⟩ := kept calls
    rw [← handleAll_map_call] at exploded disciplined punctual ⊢
    exact stays_iff_of_aftermath (begins _ exploded) disciplined punctual

/-- A game that begins as the operator, with one second to go after a wrong flag. -/
def hastyConfig : Config :=
  { Config.default with
    shell := { Config.defaultShell with user := "operator" }
    countdown := { Config.defaultCountdown with initialSecs := 1 } }

/-- A wrong flag, and a connection to the deep layer that is made after the second is over. -/
def escape : List Call :=
  [.submit "unzip /home/operator/backup.zip -d /tmp", .submit "base64 -d /tmp/id_rsa.b64 /tmp/key",
    .submit "submit x", .submit "ssh -i /tmp/key 10.13.37.7", .tick 1000]

def blunder : List Call :=
  [.submit "submit x", .tick 1000]

/-- A wrong flag, and one more after the game has been shut down, for which no second is left. -/
def relapse : List Handling :=
  [.call (.submit "submit x"), .shutdown, .call (.submit "submit x")]

theorem aftermath_of_exploded_blunder :
    (Terminal.backendOf hastyConfig).config.validate = .ok () ∧
      ∃ game, start hastyConfig (⟨[]⟩ : MemoryStore) = .ok game ∧
        (game.handleAll (Terminal.backendOf hastyConfig) relapse).countdown.exploded = true ∧
        (∀ later, .call .reset ∉ later →
          Aftermath hastyConfig.shell (game.handleAll (Terminal.backendOf hastyConfig) relapse)
            ((game.handleAll (Terminal.backendOf hastyConfig) relapse).handleAll
              (Terminal.backendOf hastyConfig) later)) ∧
        (game.play (Terminal.backendOf hastyConfig) blunder).countdown.exploded = true ∧
        ∀ later, Call.reset ∉ later →
          ((game.play (Terminal.backendOf hastyConfig) blunder).play
              (Terminal.backendOf hastyConfig) later).session.withoutStreak =
            (game.play (Terminal.backendOf hastyConfig) blunder).session.withoutStreak := by
  obtain ⟨game, started, after, stays⟩ :=
    @aftermath_of_exploded MemoryStore _ (Terminal.backendOf hastyConfig) rfl ⟨[]⟩
  have computed : (start hastyConfig (⟨[]⟩ : MemoryStore)).toOption.map (fun game =>
      let blundered := game.play (Terminal.backendOf hastyConfig) blunder
      ((game.handleAll (Terminal.backendOf hastyConfig) relapse).countdown.exploded,
        blundered.countdown.exploded, blundered.switching)) = some (true, true, false) := by
    decide +kernel
  rw [show start hastyConfig (⟨[]⟩ : MemoryStore) = .ok game from started] at computed
  simp only [Except.toOption, Option.map_some, Option.some.injEq, Prod.mk.injEq] at computed
  obtain ⟨relapsed, exploded, still⟩ := computed
  refine ⟨rfl, game, started, relapsed, fun later onwards => ?_, exploded, ?_⟩
  · exact (after relapse _ rfl relapsed later onwards).1
  · exact (stays blunder _ rfl exploded).2 still

/--
The player escapes from the explosion: the connection is made although the countdown has exploded,
and it makes the privileged user of them.
-/
theorem escape_after_explosion :
    ∃ game, start hastyConfig (⟨[]⟩ : MemoryStore) = .ok game ∧
      (game.play (Terminal.backendOf hastyConfig) escape).countdown = .spent ∧
      (game.play (Terminal.backendOf hastyConfig) escape).session =
        ⟨"operator", "/home/guest", .standard, [], 0, 0⟩ ∧
      ((game.play (Terminal.backendOf hastyConfig) escape).play (Terminal.backendOf hastyConfig)
        [.tick 200]).session = ⟨"root", "/root", .deep, [], 0, 0⟩ := by
  have computed : (start hastyConfig (⟨[]⟩ : MemoryStore)).toOption.map (fun game =>
      ((game.play (Terminal.backendOf hastyConfig) escape).countdown,
        (game.play (Terminal.backendOf hastyConfig) escape).session,
        ((game.play (Terminal.backendOf hastyConfig) escape).play (Terminal.backendOf hastyConfig)
          [.tick 200]).session)) =
      some (.spent, ⟨"operator", "/home/guest", .standard, [], 0, 0⟩,
        ⟨"root", "/root", .deep, [], 0, 0⟩) := by
    decide +kernel
  cases started : start hastyConfig (⟨[]⟩ : MemoryStore) with
  | error fault =>
      rw [started] at computed
      cases computed
  | ok game =>
      rw [started] at computed
      obtain ⟨spent, before, after⟩ := Prod.mk.inj (Option.some.inj computed) |>.imp_right
        Prod.mk.inj
      exact ⟨game, rfl, spent, before, after⟩

end Game

end PuzzleShell

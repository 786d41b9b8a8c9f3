import Mathlib.Data.List.Chain
import PuzzleShell.Proofs.Command.Line
import PuzzleShell.Proofs.Game.Provenance

/-!
# Moment by moment

Between two moments of a game a line is typed, a timer fires or the clock moves on.  A line makes of
the player and of the tree of their layer what the commands make of them.  A timer that fires leaves
both alone, or the player crosses over to the other layer.
-/

namespace PuzzleShell.Game

variable {σ : Type} {shell : ShellSettings} {config : Config} {backend : Backend}
  {game next before after : Game σ} {target : Nat}

structure Rests (before after : Game σ) : Prop where
  user : after.session.user = before.session.user
  cwd : after.session.cwd = before.session.cwd
  layer : after.session.layer = before.session.layer
  solved : after.session.solved = before.session.solved
  parked : after.parked = before.parked
  trees : ∀ layer, after.treeOf layer = before.treeOf layer

structure Crosses (shell : ShellSettings) (before after : Game σ) : Prop where
  player :
    (before.session.layer = .standard ∧
        after.session =
          { before.session with user := shell.deepUser, cwd := shell.deepPath, layer := .deep } ∧
        after.parked = some ⟨before.session.user, before.session.cwd⟩) ∨
      ∃ identity, before.parked = some identity ∧
        after.session =
          { before.session with user := identity.user, cwd := identity.cwd, layer := .standard } ∧
        after.parked = none
  trees : ∀ layer, after.treeOf layer = before.treeOf layer

theorem Crosses.solved (crosses : before.Crosses shell after) :
    after.session.solved = before.session.solved := by
  rcases crosses.player with ⟨-, session, -⟩ | ⟨identity, -, session, -⟩ <;> rw [session]

theorem Rests.of_eq (session : after.session = before.session)
    (parked : after.parked = before.parked)
    (trees : ∀ layer, after.treeOf layer = before.treeOf layer) : before.Rests after :=
  ⟨by rw [session], by rw [session], by rw [session], by rw [session], parked, trees⟩

theorem rests_advanceTo (game : Game σ) (time : Nat) : game.Rests (game.advanceTo time) :=
  .of_eq rfl rfl fun layer => by cases layer <;> rfl

theorem rests_shutdown (game : Game σ) : game.Rests game.shutdown :=
  .of_eq rfl rfl fun layer => by cases layer <;> rfl

/-- At the beginning of a game nobody is parked. -/
theorem Begun.parked (begun : game.Begun config) (disciplined : game.machines.Disciplined) :
    game.parked = none := by
  have deep := disciplined.orderly.deep
  rw [begun.layer] at deep
  exact Option.not_isSome_iff_eq_none.1 fun parked => Layer.noConfusion (deep.2 parked)

/-- What leads from each member of a chain to the next leads from any to the one right after it. -/
theorem goes_of_adjacent {Goes : Game σ → Game σ → Prop} {moments : List (Game σ)}
    (chain : moments.IsChain Goes) (adjacent : [before, after] <:+: moments) :
    Goes before after := by
  have pair := chain.infix adjacent
  exact List.isChain_pair.1 pair

variable [Store σ]

theorem rests_fire_phaseOver (config : Config) (game : Game σ) :
    game.Rests (game.fire config .phaseOver) := by
  have trees := treeOf_fire config game .phaseOver
  cases elapsed : game.collapse.phase.next? .holdElapsed with
  | none =>
      refine .of_eq ?_ ?_ trees <;>
        simp only [fire, Collapse.takeTimer, Collapse.fire, elapsed]
  | some phase =>
      have entered := session_enterPhase config { game with collapse := ⟨phase, none⟩ } phase
      have parked := (sets_enterPhase config { game with collapse := ⟨phase, none⟩ } phase).parked
      rw [← fire_phaseOver elapsed] at entered parked
      refine ⟨?_, ?_, ?_, ?_, parked, trees⟩ <;>
        · rw [entered]
          split <;> rfl

/-- A timer that fires leaves the player alone or makes them cross over. -/
theorem fire_moves (config : Config) (game : Game σ) (event : GameEvent) :
    game.Rests (game.fire config event) ∨ game.Crosses config.shell (game.fire config event) := by
  have trees := treeOf_fire config game event
  cases event with
  | phaseOver => exact Or.inl (rests_fire_phaseOver config game)
  | second =>
      have sets := sets_fire_second config .normal game
      exact Or.inl (.of_eq sets.session sets.parked trees)
  | enterDeep =>
      cases layer : game.session.layer with
      | standard =>
          refine Or.inr ⟨Or.inl ⟨layer, ?_, ?_⟩, trees⟩ <;>
            simp only [fire, say, Session.enterDeep, Session.isDeep, layer] <;> rfl
      | deep =>
          refine Or.inl (.of_eq ?_ ?_ trees) <;>
            simp only [fire, say, Session.enterDeep, Session.isDeep, layer] <;> rfl
  | leaveDeep =>
      cases parked : game.parked with
      | none =>
          refine Or.inl (.of_eq ?_ ?_ trees) <;>
            simp only [fire, say, Session.leaveDeep, parked]
      | some identity =>
          refine Or.inr ⟨Or.inr ⟨identity, parked, ?_, ?_⟩, trees⟩ <;>
            simp only [fire, say, Session.leaveDeep, parked]

theorem step?_moves (stepped : game.step? config target = some next) :
    game.Rests next ∨ game.Crosses config.shell next := by
  obtain ⟨entry, timers, popped, rfl⟩ := step?_eq_some_iff.1 stepped
  rcases fire_moves config { game with timers := timers } entry.event with rests | crosses
  · exact Or.inl ⟨rests.user, rests.cwd, rests.layer, rests.solved, rests.parked,
      treeOf_step? stepped⟩
  · exact Or.inr ⟨crosses.player, treeOf_step? stepped⟩

/-- What lasts while the player rests and when they cross over lasts while time passes. -/
theorem tick_preserves {Holds : Game σ → Prop}
    (rests : ∀ before after : Game σ, before.Rests after → Holds before → Holds after)
    (crosses : ∀ before after : Game σ,
      before.Crosses config.shell after → Holds before → Holds after)
    (elapsed : Nat) (holds : Holds game) : Holds (game.tick config elapsed) := by
  have ran := @runDue_preserves σ game _ config (later game.timers.now elapsed) Holds
    (fun before after stepped kept =>
      (step?_moves stepped).elim (rests before after · kept) (crosses before after · kept)) holds
  exact rests _ _ (rests_advanceTo _ _) ran

/-- A line makes of the player and of the tree of their layer what the commands make of them. -/
theorem exists_submitted (backend : Backend) (line : String) (enabled : game.inputEnabled = true) :
    ∃ turn, (Registry.ofLayer game.session.layer).Submitted backend line game.turn turn ∧
      (game.submit backend line).game.session = turn.session ∧
      (game.submit backend line).game.parked = game.parked ∧
      (game.submit backend line).game.treeOf game.session.layer = turn.tree := by
  obtain ⟨shown, sets⟩ := exists_sets_submit backend line .normal enabled
  have parked : (game.worked shown (game.typed backend line).2).parked = game.parked := by
    unfold worked withTree
    split <;> rfl
  refine ⟨_, Registry.submitted game.session.layer backend line game.turn, ?_, ?_, ?_⟩
  · rw [sets.session]
    unfold worked withTree
    split <;> rfl
  · rw [sets.parked, parked]
  · rw [sets.treeOf, worked, treeOf_withTree]
    rfl

/-- A line leaves the layer and who is parked alone. -/
theorem layer_typed (backend : Backend) (game : Game σ) (line : String) :
    (game.submit backend line).game.session.layer = game.session.layer ∧
      (game.submit backend line).game.parked = game.parked := by
  by_cases enabled : game.inputEnabled = true
  · obtain ⟨turn, submitted, session, parked, -⟩ := exists_submitted backend line enabled
    exact ⟨session ▸ submitted.layer, parked⟩
  · rw [submit, if_neg enabled]
    exact ⟨rfl, rfl⟩

def passing (config : Config) (target : Nat) (game : Game σ) : List (Game σ) :=
  match _stepped : game.step? config target with
  | none => []
  | some next => next :: next.passing config target
termination_by game.workLeft
decreasing_by exact workLeft_step?_lt _stepped

/-- The games that a game passes through when it is handled; the last one is what it is left as. -/
def course (backend : Backend) (game : Game σ) : Handling → List (Game σ)
  | .call (.tick elapsed) =>
      game.passing backend.config (later game.timers.now elapsed) ++
        [game.tick backend.config elapsed]
  | handling => [game.handle backend handling]

def history (backend : Backend) : Game σ → List Handling → List (Game σ)
  | _, [] => []
  | game, handling :: rest =>
      game.course backend handling ++ (game.handle backend handling).history backend rest

/-- What may happen between two moments of a game that is not started over. -/
inductive Moment (backend : Backend) (game : Game σ) : Game σ → Prop where
  | typed (line : String) : Moment backend game (game.submit backend line).game
  | fires {target : Nat} {next : Game σ} (stepped : game.step? backend.config target = some next) :
      Moment backend game next
  | clock (time : Nat) : Moment backend game (game.advanceTo time)
  | shutdown : Moment backend game game.shutdown

theorem passing_of_eq_none (finished : game.step? config target = none) :
    game.passing config target = [] := by
  rw [passing]
  split
  · rfl
  next stepped =>
    rw [finished] at stepped
    cases stepped

theorem passing_of_eq_some (stepped : game.step? config target = some next) :
    game.passing config target = next :: next.passing config target := by
  rw [passing]
  split
  next finished =>
    rw [stepped] at finished
    cases finished
  next other again =>
    rw [stepped] at again
    cases again
    rfl

/-- What goes on from where the firing ends goes on from each moment of the firing. -/
theorem isChain_passing {Goes : Game σ → Game σ → Prop} {rest : List (Game σ)}
    (fires : ∀ game next : Game σ, game.step? config target = some next → Goes game next)
    (onwards : (game.runDue config target :: rest).IsChain Goes) :
    (game :: (game.passing config target ++ rest)).IsChain Goes := by
  fun_induction runDue config target game with
  | case1 game finished =>
      rw [passing_of_eq_none finished]
      exact onwards
  | case2 game next stepped ih =>
      rw [passing_of_eq_some stepped]
      exact .cons_cons (fires game next stepped) (ih onwards)

theorem isChain_course {handling : Handling} {rest : List (Game σ)}
    (goesOn : handling ≠ .call .reset)
    (onwards : (game.handle backend handling :: rest).IsChain (Moment backend)) :
    (game :: (game.course backend handling ++ rest)).IsChain (Moment backend) := by
  cases handling with
  | shutdown => exact .cons_cons .shutdown onwards
  | call call =>
      cases call with
      | submit line => exact .cons_cons (.typed line) onwards
      | tick elapsed =>
          rw [course, List.append_assoc]
          exact isChain_passing (fun _ _ => .fires) (.cons_cons (.clock _) onwards)
      | reset => exact absurd rfl goesOn

theorem getLast?_course (backend : Backend) (game : Game σ) (handling : Handling) :
    (game.course backend handling).getLast? = some (game.handle backend handling) := by
  cases handling with
  | shutdown => rfl
  | call call =>
      cases call with
      | tick elapsed => exact List.getLast?_concat
      | submit line | reset => rfl

/-- The history of a game ends with what it is left as. -/
theorem getLast?_history (backend : Backend) (game : Game σ) (handlings : List Handling) :
    (game :: game.history backend handlings).getLast? =
      some (game.handleAll backend handlings) := by
  induction handlings generalizing game with
  | nil => rfl
  | cons handling rest ih =>
      have later := ih (game.handle backend handling)
      rw [List.getLast?_cons] at later
      rw [history, List.getLast?_cons, List.getLast?_append, getLast?_course, Option.or_some,
        Option.getD_some]
      exact later

/-- As long as a game is not started over, it goes from moment to moment. -/
theorem isChain_history {handlings : List Handling} (goesOn : .call .reset ∉ handlings) :
    (game :: game.history backend handlings).IsChain (Moment backend) := by
  induction handlings generalizing game with
  | nil => exact .singleton game
  | cons handling rest ih =>
      rw [List.mem_cons, not_or] at goesOn
      exact isChain_course (Ne.symm goesOn.1) (ih goesOn.2)

end PuzzleShell.Game

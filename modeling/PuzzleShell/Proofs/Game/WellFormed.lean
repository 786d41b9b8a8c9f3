import PuzzleShell.Proofs.Command.Canonical
import PuzzleShell.Proofs.Game.Admission
import PuzzleShell.Proofs.Game.Moments
import PuzzleShell.Proofs.World

/-!
# Names and working directories stay well formed

Whatever is done to a game, the player is at a canonical path, and so is the place that they come
back to from the deep layer.  Both trees stay well formed: their roots are directories, directories
name their entries validly and apart, and archives pack valid names only.
-/

namespace PuzzleShell

theorem World.wellFormed_ofLayer (config : Config) (layer : Layer) :
    (ofLayer config layer).WellFormed := by
  cases layer with
  | standard => exact wellFormed_standard config
  | deep => exact wellFormed_deep

namespace Game

variable {σ : Type} {backend : Backend} {config : Config} {game after : Game σ}

structure WellFormed (game : Game σ) : Prop where
  cwd : Path.Canonical game.session.cwd
  parked : ∀ identity ∈ game.parked, Path.Canonical identity.cwd
  trees : ∀ layer, (game.treeOf layer).WellFormed

namespace WellFormed

theorem turn (wellFormed : game.WellFormed) : game.turn.WellFormed where
  cwd := wellFormed.cwd
  tree := by
    rw [Game.turn, tree_eq_treeOf]
    exact wellFormed.trees game.session.layer

theorem rests (wellFormed : game.WellFormed) (rests : game.Rests after) : after.WellFormed where
  cwd := rests.cwd ▸ wellFormed.cwd
  parked := rests.parked ▸ wellFormed.parked
  trees layer := rests.trees layer ▸ wellFormed.trees layer

theorem crosses (wellFormed : game.WellFormed) (canonical : config.Canonical)
    (crosses : game.Crosses config.shell after) : after.WellFormed := by
  have trees : ∀ layer, (after.treeOf layer).WellFormed :=
    fun layer => crosses.trees layer ▸ wellFormed.trees layer
  rcases crosses.player with ⟨-, session, parked⟩ | ⟨identity, known, session, parked⟩
  · refine ⟨?_, ?_, trees⟩
    · rw [session]
      exact canonical.deepPath
    · rw [parked]
      rintro identity ⟨⟩
      exact wellFormed.cwd
  · refine ⟨?_, ?_, trees⟩
    · rw [session]
      exact wellFormed.parked identity known
    · rw [parked]
      rintro identity ⟨⟩

/-- A game at its beginning is well formed. -/
theorem of_begun (canonical : config.Canonical) (begun : game.Begun config)
    (cwd : game.session.cwd = config.shell.startPath) (parked : game.parked = none) :
    game.WellFormed where
  cwd := cwd ▸ canonical.startPath
  parked := parked ▸ nofun
  trees layer := by
    rw [begun.treeOf_eq]
    exact World.wellFormed_ofLayer config layer

variable [Store σ]

theorem submit (wellFormed : game.WellFormed) (canonical : backend.config.Canonical)
    (line : String) : (game.submit backend line).game.WellFormed := by
  by_cases enabled : game.inputEnabled = true
  · obtain ⟨turn, submitted, session, parked, tree⟩ := exists_submitted backend line enabled
    have worked := submitted.wellFormed canonical wellFormed.turn
    refine ⟨session ▸ worked.cwd, parked ▸ wellFormed.parked, fun layer => ?_⟩
    by_cases here : layer = game.session.layer
    · rw [here, tree]
      exact worked.tree
    · rw [treeOf_submit_of_ne backend line here]
      exact wellFormed.trees layer
  · rw [Game.submit, if_neg enabled]
    exact wellFormed

theorem handle (wellFormed : game.WellFormed) (canonical : backend.config.Canonical)
    (handling : Handling) : (game.handle backend handling).WellFormed := by
  cases handling with
  | shutdown => exact wellFormed.rests (rests_shutdown game)
  | call call =>
      cases call with
      | submit line => exact wellFormed.submit canonical line
      | tick elapsed =>
          exact tick_preserves (fun _ _ rests before => before.rests rests)
            (fun _ _ crosses before => before.crosses canonical crosses) elapsed wellFormed
      | reset => exact .of_begun canonical (begun_reset backend.config game) rfl rfl

end WellFormed

variable [Store σ]

/--
Names and working directories stay well formed.  If the player starts, descends and logs in at
canonical paths, then whatever is done to the game they are at a canonical path, now and outside of
the deep layer; the roots of both trees are directories, in every directory of them the names are
distinct and valid, and so are the names that are packed in the archives of their files.
-/
theorem names_wellFormed {backend : Backend} (valid : backend.config.validate = .ok ())
    (canonical : backend.config.Canonical) (store : σ) :
    ∃ game, start backend.config store = .ok game ∧
      ∀ handlings, (game.handleAll backend handlings).WellFormed := by
  obtain ⟨game, started, disciplined⟩ := exists_start valid store
  have begun := (begun_start started).1
  have cwd : game.session.cwd = backend.config.shell.startPath := by
    rw [(opened_start started).session, Session.start]
  have begins := WellFormed.of_begun canonical begun cwd (begun.parked disciplined)
  exact ⟨game, started, fun handlings => handleAll_preserves WellFormed
    (fun game handling before => before.handle canonical handling) handlings begins⟩

theorem canonical_default : Config.default.Canonical :=
  ⟨by decide, by decide, by decide⟩

def detour : List Handling :=
  [.call (.submit "mkdir ./a//b/.. '' ~/../guest/./c"), .call (.submit "cd .//c/../")] ++
    wayDown.map .call ++ [.shutdown]

theorem names_wellFormed_detour :
    (Terminal.backendOf .default).config.validate = .ok () ∧ Config.default.Canonical ∧
      ∃ game, start Config.default (⟨[]⟩ : MemoryStore) = .ok game ∧
        (game.handleAll (Terminal.backendOf .default) detour).session.cwd = "/root" ∧
        (game.handleAll (Terminal.backendOf .default) detour).parked =
          some ⟨"operator", "/home/operator"⟩ ∧
        (game.handleAll (Terminal.backendOf .default) detour).WellFormed := by
  obtain ⟨game, started, wellFormed⟩ :=
    @names_wellFormed MemoryStore _ (Terminal.backendOf .default) rfl canonical_default ⟨[]⟩
  have computed : (start Config.default (⟨[]⟩ : MemoryStore)).toOption.map (fun game =>
      ((game.handleAll (Terminal.backendOf .default) detour).session.cwd,
        (game.handleAll (Terminal.backendOf .default) detour).parked)) =
        some ("/root", some ⟨"operator", "/home/operator"⟩) := by
    decide +kernel
  rw [show start Config.default (⟨[]⟩ : MemoryStore) = .ok game from started] at computed
  obtain ⟨cwd, parked⟩ := Prod.mk.inj (Option.some.inj computed)
  exact ⟨rfl, canonical_default, game, started, cwd, parked, wellFormed detour⟩

end Game

end PuzzleShell

import PuzzleShell.Proofs.Command.Origin
import PuzzleShell.Proofs.Game.Beginning

/-!
# Nobody forges a reference

Whatever is done to a game, its trees refer to protected texts and pack archives only as the two
worlds do.  Time leaves the trees alone, starting over brings the worlds back, and a line makes
contents out of those that were there; all others are plain text.
-/

namespace PuzzleShell

def World.ofLayer (config : Config) : Layer → Tree
  | .standard => World.standard config
  | .deep => World.deep

namespace Game

variable {σ : Type} {config : Config} {game after : Game σ} {layer : Layer}

def treeOf (game : Game σ) : Layer → Tree
  | .standard => game.standardTree
  | .deep => game.deepTree

theorem tree_eq_treeOf (game : Game σ) : game.tree = game.treeOf game.session.layer := by
  unfold tree
  split
  next standard => rw [standard, treeOf]
  next deep => rw [deep, treeOf]

theorem treeOf_withTree (game : Game σ) (layer : Layer) (tree : Tree) :
    (game.withTree layer tree).treeOf layer = tree := by
  cases layer <;> rfl

theorem treeOf_withTree_of_ne {other : Layer} (different : other ≠ layer) (tree : Tree) :
    (game.withTree layer tree).treeOf other = game.treeOf other := by
  cases layer <;> cases other <;> first | rfl | exact absurd rfl different

theorem Sets.treeOf {Fresh : Pending GameEvent → Prop} (sets : Sets Fresh game after)
    (layer : Layer) : after.treeOf layer = game.treeOf layer := by
  cases layer with
  | standard => exact sets.standardTree
  | deep => exact sets.deepTree

/-- A game whose trees refer to nothing and pack nothing that the worlds do not. -/
def Genuine (config : Config) (game : Game σ) : Prop :=
  ∀ layer, (World.ofLayer config layer).Seeds (game.treeOf layer)

theorem Genuine.of_treeOf_eq (genuine : game.Genuine config)
    (same : ∀ layer, after.treeOf layer = game.treeOf layer) : after.Genuine config := by
  intro layer
  rw [same layer]
  exact genuine layer

theorem Begun.treeOf_eq (begun : game.Begun config) (layer : Layer) :
    game.treeOf layer = World.ofLayer config layer := by
  cases layer with
  | standard => exact begun.standardTree
  | deep => exact begun.deepTree

theorem Begun.genuine (begun : game.Begun config) : game.Genuine config := by
  intro layer
  rw [begun.treeOf_eq]
  exact .refl _

variable [Store σ]

theorem treeOf_fire (config : Config) (game : Game σ) (event : GameEvent) (layer : Layer) :
    (game.fire config event).treeOf layer = game.treeOf layer := by
  cases event with
  | phaseOver =>
      simp only [fire]
      split
      next phase collapse _ =>
        exact (sets_enterPhase config { game with collapse := collapse } phase).treeOf layer
      · cases layer <;> rfl
  | second => exact (sets_fire_second config .normal game).treeOf layer
  | enterDeep => cases layer <;> simp only [fire, say, treeOf]
  | leaveDeep => cases layer <;> simp only [fire, say, treeOf]

theorem treeOf_step? {target : Nat} (stepped : game.step? config target = some after)
    (layer : Layer) : after.treeOf layer = game.treeOf layer := by
  obtain ⟨entry, timers, popped, rfl⟩ := step?_eq_some_iff.1 stepped
  rw [treeOf_fire]
  cases layer <;> rfl

/-- Time leaves both trees alone. -/
theorem treeOf_tick (config : Config) (game : Game σ) (elapsed : Nat) (layer : Layer) :
    (game.tick config elapsed).treeOf layer = game.treeOf layer := by
  have ran := @runDue_preserves σ game _ config (later game.timers.now elapsed)
    (fun after => after.treeOf layer = game.treeOf layer)
    (fun _ _ stepped same => (treeOf_step? stepped layer).trans same) rfl
  rw [← ran]
  cases layer <;> rfl

/-- A line works on the tree of the session's layer. -/
theorem retains_submit (backend : Backend) (game : Game σ) (line : String) :
    (game.treeOf game.session.layer).Retains
      ((Registry.ofLayer game.session.layer).Leaves line game.turn)
      ((game.submit backend line).game.treeOf game.session.layer) := by
  by_cases enabled : game.inputEnabled = true
  · obtain ⟨shown, sets⟩ := exists_sets_submit backend line .normal enabled
    have retains := Registry.retains_submit game.session.layer backend line game.turn
    rw [sets.treeOf, worked, treeOf_withTree, ← tree_eq_treeOf]
    exact retains
  · rw [submit, if_neg enabled]
    exact .refl _

theorem treeOf_submit_of_ne (backend : Backend) (line : String)
    (different : layer ≠ game.session.layer) :
    (game.submit backend line).game.treeOf layer = game.treeOf layer := by
  by_cases enabled : game.inputEnabled = true
  · obtain ⟨shown, sets⟩ := exists_sets_submit backend line .normal enabled
    rw [sets.treeOf, worked, treeOf_withTree_of_ne different]
    cases layer <;> rfl
  · rw [submit, if_neg enabled]

theorem genuine_submit (backend : Backend) (line : String)
    (genuine : game.Genuine backend.config) :
    (game.submit backend line).game.Genuine backend.config := by
  intro layer
  by_cases here : layer = game.session.layer
  · subst here
    refine (genuine game.session.layer).of_retains (retains_submit backend game line) ?_
    rintro content (⟨text, rfl⟩ | ⟨idle, means, derives⟩)
    · exact .inline _ text
    · refine derives.vouches ?_
      have seeded := genuine game.session.layer
      rw [← tree_eq_treeOf] at seeded
      exact seeded
  · rw [treeOf_submit_of_ne backend line here]
    exact genuine layer

theorem genuine_handle (backend : Backend) (handling : Handling)
    (genuine : game.Genuine backend.config) :
    (game.handle backend handling).Genuine backend.config := by
  cases handling with
  | call call =>
      cases call with
      | submit line => exact genuine_submit backend line genuine
      | tick elapsed => exact genuine.of_treeOf_eq (treeOf_tick backend.config game elapsed)
      | reset => exact (begun_reset backend.config game).genuine
  | shutdown => exact genuine.of_treeOf_eq fun layer => by cases layer <;> rfl

theorem genuine_handleAll (backend : Backend) (handlings : List Handling)
    (genuine : game.Genuine backend.config) :
    (game.handleAll backend handlings).Genuine backend.config :=
  handleAll_preserves (fun game : Game σ => game.Genuine backend.config)
    (fun _ handling => genuine_handle backend handling) handlings genuine

/--
Nobody forges a reference.  Whatever is done to a game, all protected texts that its trees refer to
and all archives in them are seeded in the worlds, and what a line leaves in a file that was not
there before is plain text, unless the line names a command that makes it out of contents of the
tree.
-/
theorem genuine_provenance {backend : Backend} (valid : backend.config.validate = .ok ())
    (store : σ) :
    ∃ game, start backend.config store = .ok game ∧ ∀ handlings,
      let played := game.handleAll backend handlings
      (World.standard backend.config).Seeds played.standardTree ∧
        World.deep.Seeds played.deepTree ∧
        ∀ line,
          let typed := (played.submit backend line).game
          (played.treeOf played.session.layer).Retains
              ((Registry.ofLayer played.session.layer).Leaves line played.turn)
              (typed.treeOf played.session.layer) ∧
            ∀ other, other ≠ played.session.layer → typed.treeOf other = played.treeOf other := by
  obtain ⟨game, started, -⟩ := exists_start valid store
  refine ⟨game, started, fun handlings => ?_⟩
  have genuine := genuine_handleAll backend handlings (begun_start started).1.genuine
  refine ⟨genuine .standard, genuine .deep, fun line => ⟨?_, fun other different => ?_⟩⟩
  · exact retains_submit backend _ line
  · exact treeOf_submit_of_ne backend line different

/-- A player who writes down what a reference might look like. -/
def forgery : List Handling :=
  [.call (.submit "echo QHNlY3VyZTpkZWVwLWFjY2Vzcy1rZXk= > /tmp/k.b64"),
    .call (.submit "base64 -d /tmp/k.b64 /tmp/k"), .shutdown]

theorem genuine_provenance_forgery :
    standardBackend.config.validate = .ok () ∧
      ∃ game, start standardBackend.config (⟨[]⟩ : MemoryStore) = .ok game ∧
        (game.handleAll standardBackend forgery).standardTree.content "/tmp/k" "guest" =
          .ok (.inline "@secure:deep-access-key") ∧
        (World.standard standardBackend.config).Seeds
          (game.handleAll standardBackend forgery).standardTree := by
  obtain ⟨game, started, provenance⟩ := @genuine_provenance MemoryStore _ standardBackend rfl ⟨[]⟩
  have computed : (start standardBackend.config (⟨[]⟩ : MemoryStore)).toOption.map (fun game =>
      (game.handleAll standardBackend forgery).standardTree.content "/tmp/k" "guest") =
        some (.ok (.inline "@secure:deep-access-key")) := by
    decide +kernel
  rw [started] at computed
  exact ⟨rfl, game, started, Option.some.inj computed, (provenance forgery).1⟩

end Game

end PuzzleShell

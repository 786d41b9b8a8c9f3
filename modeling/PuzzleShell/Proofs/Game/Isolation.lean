import PuzzleShell.Proofs.Game.Admission
import PuzzleShell.Proofs.Game.Moments

/-!
# The layers are isolated from each other

While the player is in one layer, the tree of the other one does not change, and neither tree nor
the solved challenges change when they cross over.  Whoever comes back from the deep layer is who
and where they were when they left for it, since their identity is parked for the whole stay.
-/

namespace PuzzleShell.Game

variable {σ : Type} {backend : Backend} {game before after outside first back : Game σ}
  {stay : List (Game σ)}

/-- From one moment to the next nothing reaches from one layer into the other. -/
structure Isolates (before after : Game σ) : Prop where
  trees : ∀ layer, layer ≠ before.session.layer → after.treeOf layer = before.treeOf layer
  crossing : after.session.layer ≠ before.session.layer →
    after.session.solved = before.session.solved ∧
      ∀ layer, after.treeOf layer = before.treeOf layer

theorem Rests.isolates (rests : before.Rests after) : before.Isolates after :=
  ⟨fun layer _ => rests.trees layer, fun crossed => absurd rests.layer crossed⟩

theorem Crosses.isolates {shell : ShellSettings} (crosses : before.Crosses shell after) :
    before.Isolates after :=
  ⟨fun layer _ => crosses.trees layer, fun _ => ⟨crosses.solved, crosses.trees⟩⟩

variable [Store σ]

namespace Moment

/-- From one moment to the next the player stays in their layer or crosses over. -/
theorem stays_or_crosses (moment : Moment backend before after) :
    (after.session.layer = before.session.layer ∧ after.parked = before.parked) ∨
      before.Crosses backend.config.shell after := by
  cases moment with
  | typed line => exact Or.inl (layer_typed backend before line)
  | fires stepped => exact (step?_moves stepped).imp_left fun rests => ⟨rests.layer, rests.parked⟩
  | clock time => exact Or.inl ⟨rfl, rfl⟩
  | shutdown => exact Or.inl ⟨rfl, rfl⟩

theorem isolates (moment : Moment backend before after) : before.Isolates after := by
  cases moment with
  | typed line =>
      refine ⟨fun layer other => treeOf_submit_of_ne backend line other, fun crossed => ?_⟩
      exact absurd (layer_typed backend before line).1 crossed
  | fires stepped =>
      rcases step?_moves stepped with rests | crosses
      · exact rests.isolates
      · exact crosses.isolates
  | clock time => exact (rests_advanceTo before time).isolates
  | shutdown => exact (rests_shutdown before).isolates

/-- Whoever goes down is parked. -/
theorem enters (moment : Moment backend before after) (standard : before.session.layer = .standard)
    (deep : after.session.layer = .deep) :
    after.parked = some ⟨before.session.user, before.session.cwd⟩ := by
  rcases moment.stays_or_crosses with ⟨same, -⟩ | crosses
  · rw [standard, deep] at same
    cases same
  · rcases crosses.player with ⟨-, -, parked⟩ | ⟨identity, -, session, -⟩
    · exact parked
    · rw [session] at deep
      cases deep

theorem parked_eq (moment : Moment backend before after) (deep : before.session.layer = .deep)
    (still : after.session.layer = .deep) : after.parked = before.parked := by
  rcases moment.stays_or_crosses with ⟨-, parked⟩ | crosses
  · exact parked
  · rcases crosses.player with ⟨standard, -, -⟩ | ⟨identity, -, session, -⟩
    · rw [deep] at standard
      cases standard
    · rw [session] at still
      cases still

/-- Whoever comes back is the one who was parked. -/
theorem leaves {identity : Identity} (moment : Moment backend before after)
    (deep : before.session.layer = .deep) (standard : after.session.layer = .standard)
    (parked : before.parked = some identity) :
    after.session.user = identity.user ∧ after.session.cwd = identity.cwd := by
  rcases moment.stays_or_crosses with ⟨same, -⟩ | crosses
  · rw [standard, deep] at same
    cases same
  · rcases crosses.player with ⟨standard, -, -⟩ | ⟨known, before, session, -⟩
    · rw [deep] at standard
      cases standard
    · rw [parked] at before
      cases before
      rw [session]
      exact ⟨rfl, rfl⟩

end Moment

/-- During a stay in the deep layer the standard tree and who is parked stay the same. -/
theorem kept_during {identity : Identity} (chain : (first :: stay).IsChain (Moment backend))
    (deep : ∀ inside ∈ first :: stay, inside.session.layer = .deep)
    (parked : first.parked = some identity) :
    ∀ inside ∈ first :: stay,
      inside.standardTree = first.standardTree ∧ inside.parked = some identity := by
  induction stay generalizing first with
  | nil =>
      intro inside member
      rw [List.mem_singleton.1 member]
      exact ⟨rfl, parked⟩
  | cons second rest ih =>
      obtain ⟨moment, onwards⟩ := List.isChain_cons_cons.1 chain
      obtain ⟨here, later⟩ := List.forall_mem_cons.1 deep
      have next := moment.parked_eq here (later second List.mem_cons_self)
      have tree : second.standardTree = first.standardTree :=
        moment.isolates.trees .standard (by rw [here]; exact Layer.noConfusion)
      refine List.forall_mem_cons.2 ⟨⟨rfl, parked⟩, fun inside member => ?_⟩
      have kept := ih onwards later (next.trans parked) inside member
      exact ⟨kept.1.trans tree, kept.2⟩

/-- Also the moment in which the player goes down leaves the standard tree alone. -/
theorem kept_below (chain : (outside :: stay).IsChain (Moment backend))
    (standard : outside.session.layer = .standard)
    (deep : ∀ inside ∈ stay, inside.session.layer = .deep) :
    ∀ inside ∈ stay, inside.standardTree = outside.standardTree ∧
      inside.parked = some ⟨outside.session.user, outside.session.cwd⟩ := by
  cases stay with
  | nil => exact fun inside member => absurd member List.not_mem_nil
  | cons first rest =>
      obtain ⟨moment, onwards⟩ := List.isChain_cons_cons.1 chain
      have under := deep first List.mem_cons_self
      have crossed : first.session.layer ≠ outside.session.layer := by
        rw [under, standard]
        exact Layer.noConfusion
      have tree : first.standardTree = outside.standardTree :=
        (moment.isolates.crossing crossed).2 .standard
      intro inside member
      have kept := kept_during onwards deep (moment.enters standard under) inside member
      exact ⟨kept.1.trans tree, kept.2⟩

/-- Who comes back from a stay in the deep layer is who and where they were before. -/
theorem restored_after (chain : (outside :: (stay ++ [back])).IsChain (Moment backend))
    (nonempty : stay ≠ []) (standard : outside.session.layer = .standard)
    (deep : ∀ inside ∈ stay, inside.session.layer = .deep)
    (returned : back.session.layer = .standard) :
    back.standardTree = outside.standardTree ∧ back.session.user = outside.session.user ∧
      back.session.cwd = outside.session.cwd := by
  obtain ⟨init, last, rfl⟩ := (List.eq_nil_or_concat' stay).resolve_left nonempty
  have below : (outside :: (init ++ [last])).IsChain (Moment backend) :=
    chain.infix (List.prefix_append (outside :: (init ++ [last])) [back]).isInfix
  have moment : Moment backend last back :=
    goes_of_adjacent chain ⟨outside :: init, [], by simp⟩
  have member : last ∈ init ++ [last] := List.mem_append_right _ List.mem_cons_self
  obtain ⟨tree, parked⟩ := kept_below below standard deep last member
  have under := deep last member
  have crossed : back.session.layer ≠ last.session.layer := by
    rw [under, returned]
    exact Layer.noConfusion
  have unchanged : back.standardTree = last.standardTree :=
    (moment.isolates.crossing crossed).2 .standard
  exact ⟨unchanged.trans tree, moment.leaves under returned parked⟩

/--
The layers are isolated from each other.  As long as a game is not started over, from each moment of
its history to the next the tree of the layer that the player is not in stays the same, and when
they cross over, both trees and the solved challenges do.  From the moment in which they leave for
the deep layer to the one in which they are back the standard tree stays the same, and then they are
who and where they were.
-/
theorem layers_isolated {backend : Backend} (valid : backend.config.validate = .ok ())
    (store : σ) :
    ∃ game, start backend.config store = .ok game ∧ ∀ handlings, .call .reset ∉ handlings →
      let moments := game :: game.history backend handlings
      moments.getLast? = some (game.handleAll backend handlings) ∧
        (∀ before after, [before, after] <:+: moments → before.Isolates after) ∧
        ∀ outside stay, outside :: stay <:+: moments → outside.session.layer = .standard →
          (∀ inside ∈ stay, inside.session.layer = .deep) →
            (∀ inside ∈ stay, inside.standardTree = outside.standardTree) ∧
              ∀ back, stay ≠ [] → outside :: (stay ++ [back]) <:+: moments →
                back.session.layer = .standard →
                  back.standardTree = outside.standardTree ∧
                    back.session.user = outside.session.user ∧
                    back.session.cwd = outside.session.cwd := by
  obtain ⟨game, started, -⟩ := exists_start valid store
  refine ⟨game, started, fun handlings goesOn => ?_⟩
  have chain := @isChain_history σ backend game _ handlings goesOn
  refine ⟨getLast?_history backend game handlings, ?_, ?_⟩
  · intro before after adjacent
    exact (goes_of_adjacent chain adjacent).isolates
  · intro outside stay lasts standard deep
    have below := chain.infix lasts
    refine ⟨fun inside member => (kept_below below standard deep inside member).1, ?_⟩
    intro back nonempty returns returned
    have around := chain.infix returns
    exact restored_after around nonempty standard deep returned

def wayBack : List Handling :=
  wayDown.map .call ++
    [.call (.submit "rm -r /var"), .call (.submit "exit"), .call (.tick 800)]

theorem layers_isolated_wayBack :
    (Terminal.backendOf .default).config.validate = .ok () ∧
      ∃ game, start Config.default (⟨[]⟩ : MemoryStore) = .ok game ∧ .call .reset ∉ wayBack ∧
        ∃ outside stay back, stay ≠ [] ∧
          outside :: (stay ++ [back]) <:+:
            game :: game.history (Terminal.backendOf .default) wayBack ∧
          (∀ inside ∈ stay, inside.session.layer = .deep) ∧
          back.standardTree = outside.standardTree ∧
          back.session.user = outside.session.user ∧ back.session.cwd = outside.session.cwd := by
  obtain ⟨game, started, isolated⟩ :=
    @layers_isolated MemoryStore _ (Terminal.backendOf .default) rfl ⟨[]⟩
  have computed : (start Config.default (⟨[]⟩ : MemoryStore)).toOption.map (fun game =>
      (game :: game.history (Terminal.backendOf .default) wayBack).map (·.session.layer)) =
        some (List.replicate 6 .standard ++
          (.standard :: (List.replicate 4 .deep ++ [.standard])) ++ [.standard]) := by
    decide +kernel
  rw [show start Config.default (⟨[]⟩ : MemoryStore) = .ok game from started] at computed
  have layers := Option.some.inj computed
  have goesOn : .call .reset ∉ wayBack := by decide
  obtain ⟨lead, tail, whole, layers, -⟩ := List.map_eq_append_iff.1 layers
  obtain ⟨front, middle, rfl, -, layers⟩ := List.map_eq_append_iff.1 layers
  obtain ⟨outside, inner, rfl, standard, layers⟩ := List.map_eq_cons_iff.1 layers
  obtain ⟨stay, ending, rfl, below, layers⟩ := List.map_eq_append_iff.1 layers
  obtain ⟨back, none, rfl, returned, nothing⟩ := List.map_eq_cons_iff.1 layers
  obtain rfl := List.map_eq_nil_iff.1 nothing
  have deep : ∀ inside ∈ stay, inside.session.layer = .deep := by
    intro inside member
    have listed := List.mem_map_of_mem (f := fun inside => inside.session.layer) member
    exact List.eq_of_mem_replicate (below ▸ listed)
  have nonempty : stay ≠ [] := by
    rintro rfl
    cases below
  have returns : outside :: (stay ++ [back]) <:+:
      game :: game.history (Terminal.backendOf .default) wayBack :=
    ⟨front, tail, whole.symm⟩
  have lasts : outside :: stay <:+: game :: game.history (Terminal.backendOf .default) wayBack :=
    (List.prefix_append (outside :: stay) [back]).isInfix.trans returns
  have restored :=
    ((isolated wayBack goesOn).2.2 outside stay lasts standard deep).2 back nonempty returns
      returned
  exact ⟨rfl, game, started, goesOn, outside, stay, back, nonempty, returns, deep, restored⟩

end PuzzleShell.Game

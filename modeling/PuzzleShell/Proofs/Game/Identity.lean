import PuzzleShell.Proofs.Game.Admission
import PuzzleShell.Proofs.Game.Moments

/-!
# The player is whoever they have logged in as

A line makes someone else of the player only if it is the password of the user for whom a login
waits, and time does so only when they cross over to the other layer.  So in the standard layer they
are the user that they began as, or one whose password has been typed since.
-/

namespace PuzzleShell.Game

variable {σ : Type} {config : Config} {backend : Backend} {game before after : Game σ}
  {handlings : List Handling} {handling : Handling} {Known Other : String → Prop}

/-- Whether a line, if it is typed now, is the password of the user for whom a login waits. -/
structure LogsIn (config : Config) (line user : String) (game : Game σ) : Prop where
  enabled : game.inputEnabled = true
  waits : game.tool = some (.login (some user))
  admits : config.Admits user line

/-- Somebody is parked just while the player is in the deep layer. -/
def Housed (game : Game σ) : Prop :=
  game.parked.isSome = true ↔ game.session.layer = .deep

theorem Rests.housed (rests : before.Rests after) (housed : before.Housed) : after.Housed := by
  rw [Housed, rests.parked, rests.layer]
  exact housed

theorem Crosses.housed {shell : ShellSettings} (crosses : before.Crosses shell after) :
    after.Housed := by
  rcases crosses.player with ⟨-, session, parked⟩ | ⟨identity, -, session, parked⟩ <;>
    simp [Housed, session, parked]

/-- Whoever crosses over while their house is in order comes to the other layer. -/
theorem Crosses.layer_ne {shell : ShellSettings} (crosses : before.Crosses shell after)
    (housed : before.Housed) : after.session.layer ≠ before.session.layer := by
  rcases crosses.player with ⟨standard, session, -⟩ | ⟨identity, parked, session, -⟩
  · rw [session, standard]
    exact Layer.noConfusion
  · rw [session, housed.1 (Option.isSome_of_eq_some parked)]
    exact Layer.noConfusion

/-- A property that whoever is outside of the deep layer has: the player or who is parked. -/
structure Vouched (Known : String → Prop) (game : Game σ) : Prop where
  outside : game.session.layer = .standard → Known game.session.user
  parked : ∀ identity ∈ game.parked, Known identity.user

namespace Vouched

theorem mono (vouched : before.Vouched Known) (implied : ∀ user, Known user → Other user) :
    before.Vouched Other :=
  ⟨fun standard => implied _ (vouched.outside standard),
    fun identity parked => implied _ (vouched.parked identity parked)⟩

theorem rests (vouched : before.Vouched Known) (rests : before.Rests after) :
    after.Vouched Known where
  outside := by
    rw [rests.layer, rests.user]
    exact vouched.outside
  parked := rests.parked ▸ vouched.parked

theorem crosses {shell : ShellSettings} (vouched : before.Vouched Known)
    (crosses : before.Crosses shell after) : after.Vouched Known := by
  rcases crosses.player with ⟨standard, session, parked⟩ | ⟨identity, known, session, parked⟩
  · refine ⟨fun still => ?_, ?_⟩
    · rw [session] at still
      cases still
    · rw [parked]
      rintro identity ⟨⟩
      exact vouched.outside standard
  · refine ⟨fun _ => ?_, ?_⟩
    · rw [session]
      exact vouched.parked identity known
    · rw [parked]
      rintro identity ⟨⟩

end Vouched

variable [Store σ]

/-- A line is the password that a login waits for, and then its user is the player, or it is not. -/
theorem user_submit_cases (backend : Backend) (game : Game σ) (line : String) :
    game.LogsIn backend.config line (game.submit backend line).game.session.user ∨
      (game.submit backend line).game.session.user = game.session.user ∧
        ∀ user, ¬ game.LogsIn backend.config line user := by
  by_cases enabled : game.inputEnabled = true
  · obtain ⟨turn, submitted, session, -, -⟩ := exists_submitted backend line enabled
    rw [session]
    rcases submitted.user_cases with ⟨waits, admits⟩ | ⟨same, wrong⟩
    · exact Or.inl ⟨enabled, waits, admits⟩
    · exact Or.inr ⟨same, fun user logsIn => wrong user logsIn.waits logsIn.admits⟩
  · rw [submit, if_neg enabled]
    exact Or.inr ⟨rfl, fun user logsIn => enabled logsIn.enabled⟩

theorem LogsIn.user_submit {line user : String} (logsIn : game.LogsIn backend.config line user) :
    (game.submit backend line).game.session.user = user := by
  rcases user_submit_cases backend game line with ⟨-, waits, -⟩ | ⟨-, nobody⟩
  · have same := waits.symm.trans logsIn.waits
    simpa using same
  · exact absurd logsIn (nobody user)

theorem LogsIn.of_user_ne {line : String}
    (different : (game.submit backend line).game.session.user ≠ game.session.user) :
    game.LogsIn backend.config line (game.submit backend line).game.session.user :=
  (user_submit_cases backend game line).resolve_right fun same => different same.1

theorem housed_handle (backend : Backend) (game : Game σ) (handling : Handling)
    (housed : game.Housed) : (game.handle backend handling).Housed := by
  cases handling with
  | shutdown => exact housed
  | call call =>
      cases call with
      | submit line =>
          obtain ⟨layer, parked⟩ := layer_typed backend game line
          rw [Housed, handle, call, layer, parked]
          exact housed
      | tick elapsed =>
          exact tick_preserves (fun _ _ rests => rests.housed) (fun _ _ crosses _ => crosses.housed)
            elapsed housed
      | reset => simp [Housed, handle, call, reset, Session.start]

/-- While time passes the player changes only by crossing over. -/
theorem layer_ne_of_user_ne {elapsed : Nat} (housed : game.Housed)
    (adjacent : [before, after] <:+: game :: game.course backend (.call (.tick elapsed)))
    (different : after.session.user ≠ before.session.user) :
    before.Crosses backend.config.shell after ∧ after.session.layer ≠ before.session.layer := by
  have chain : (game :: game.course backend (.call (.tick elapsed))).IsChain
      fun before after : Game σ =>
        before.Rests after ∨ before.Crosses backend.config.shell after := by
    rw [course]
    exact isChain_passing (fun _ _ => step?_moves)
      (.cons_cons (Or.inl (rests_advanceTo _ _)) (.singleton _))
  have here : before.Housed := by
    refine List.IsChain.induction Housed _ chain (fun before after moves housed => ?_)
      (fun _ => housed) before (adjacent.subset List.mem_cons_self)
    exact moves.elim (·.housed housed) (·.housed)
  rcases goes_of_adjacent chain adjacent with rests | crosses
  · exact absurd rests.user different
  · exact ⟨crosses, crosses.layer_ne here⟩

/-- Whether a user's password has been typed at their login since the game was last started over. -/
def HasLoggedIn (backend : Backend) (game : Game σ) (handlings : List Handling) (user : String) :
    Prop :=
  ∃ front line rest, handlings = front ++ .call (.submit line) :: rest ∧ .call .reset ∉ rest ∧
    (game.handleAll backend front).LogsIn backend.config line user

theorem HasLoggedIn.concat {user : String} (logged : game.HasLoggedIn backend handlings user)
    (goesOn : handling ≠ .call .reset) :
    game.HasLoggedIn backend (handlings ++ [handling]) user := by
  obtain ⟨front, line, rest, rfl, still, logsIn⟩ := logged
  refine ⟨front, line, rest ++ [handling], by simp, ?_, logsIn⟩
  simp [still, Ne.symm goesOn]

theorem handleAll_concat (backend : Backend) (game : Game σ) (handlings : List Handling)
    (handling : Handling) :
    game.handleAll backend (handlings ++ [handling]) =
      (game.handleAll backend handlings).handle backend handling := by
  rw [handleAll, List.foldl_append]
  rfl

/-- Whoever is outside of the deep layer has begun there or has logged in. -/
theorem vouched_handleAll
    (user : game.session.user = backend.config.shell.user) (parked : game.parked = none)
    (handlings : List Handling) :
    (game.handleAll backend handlings).Vouched fun user =>
      user = backend.config.shell.user ∨ game.HasLoggedIn backend handlings user := by
  induction handlings using List.reverseRecOn with
  | nil => exact ⟨fun _ => Or.inl user, parked ▸ nofun⟩
  | append_singleton handlings handling ih =>
      rw [handleAll_concat]
      by_cases afresh : handling = .call .reset
      · subst afresh
        exact ⟨fun _ => Or.inl rfl, nofun⟩
      have still := ih.mono (fun user known => known.imp_right (·.concat afresh))
      cases handling with
      | shutdown => exact still.rests (rests_shutdown _)
      | call call =>
          cases call with
          | submit line =>
              obtain ⟨layer, parked⟩ := layer_typed backend (game.handleAll backend handlings) line
              refine ⟨fun standard => ?_, ?_⟩
              · rw [handle, Game.call] at standard ⊢
                rcases user_submit_cases backend (game.handleAll backend handlings) line with
                  logsIn | ⟨same, -⟩
                · exact Or.inr ⟨handlings, line, [], rfl, List.not_mem_nil, logsIn⟩
                · rw [same]
                  exact still.outside (layer ▸ standard)
              · rw [handle, Game.call, parked]
                exact still.parked
          | tick elapsed =>
              exact tick_preserves (fun _ _ rests before => before.rests rests)
                (fun _ _ crosses before => before.crosses crosses) elapsed still
          | reset => exact absurd rfl afresh

/--
The player is whoever they have logged in as.  Whatever has been done to a game, a line makes
someone else of them only if it is the password of the user for whom a login waits, and then they
are that user; while time passes it takes a change of layers; and starting over makes the first user
of them.
So in the standard layer they are that user, or one whose password has been typed at their login
since the game was last started over.
-/
theorem user_authenticated {backend : Backend} (valid : backend.config.validate = .ok ())
    (store : σ) :
    ∃ game, start backend.config store = .ok game ∧ ∀ handlings,
      let played := game.handleAll backend handlings
      (∀ line,
        let typed := (played.submit backend line).game
        (typed.session.user ≠ played.session.user →
            played.LogsIn backend.config line typed.session.user) ∧
          ∀ user, played.LogsIn backend.config line user → typed.session.user = user) ∧
      (∀ elapsed before after,
        [before, after] <:+: played :: played.course backend (.call (.tick elapsed)) →
          after.session.user ≠ before.session.user →
            before.Crosses backend.config.shell after ∧
              after.session.layer ≠ before.session.layer) ∧
      (played.reset backend.config).session.user = backend.config.shell.user ∧
      played.shutdown.session.user = played.session.user ∧
      (played.session.layer = .standard →
        played.session.user = backend.config.shell.user ∨
          game.HasLoggedIn backend handlings played.session.user) := by
  obtain ⟨game, started, disciplined⟩ := exists_start valid store
  have begun := (begun_start started).1
  have parked := begun.parked disciplined
  have user : game.session.user = backend.config.shell.user := by
    rw [(opened_start started).session, Session.start]
  have housed : game.Housed := by simp [Housed, parked, begun.layer]
  refine ⟨game, started, fun handlings => ?_⟩
  have here := handleAll_preserves Housed (housed_handle backend) handlings housed
  have vouched := vouched_handleAll user parked handlings
  refine ⟨fun line => ⟨.of_user_ne, fun user => LogsIn.user_submit⟩, ?_, rfl, rfl, vouched.outside⟩
  exact fun elapsed before after => layer_ne_of_user_ne here

theorem user_authenticated_operator :
    (Terminal.backendOf .default).config.validate = .ok () ∧
      ∃ game, start Config.default (⟨[]⟩ : MemoryStore) = .ok game ∧
        (game.handleAll (Terminal.backendOf .default) ((wayDown.take 3).map .call)).session.user =
          "operator" ∧
        game.HasLoggedIn (Terminal.backendOf .default) ((wayDown.take 3).map .call) "operator" := by
  obtain ⟨game, started, authenticated⟩ :=
    @user_authenticated MemoryStore _ (Terminal.backendOf .default) rfl ⟨[]⟩
  have computed : (start Config.default (⟨[]⟩ : MemoryStore)).toOption.map (fun game =>
      ((game.handleAll (Terminal.backendOf .default) ((wayDown.take 3).map .call)).session.user,
        (game.handleAll (Terminal.backendOf .default)
          ((wayDown.take 3).map .call)).session.layer)) = some ("operator", .standard) := by
    decide +kernel
  rw [show start Config.default (⟨[]⟩ : MemoryStore) = .ok game from started] at computed
  obtain ⟨user, layer⟩ := Prod.mk.inj (Option.some.inj computed)
  have known := (authenticated ((wayDown.take 3).map .call)).2.2.2.2 layer
  rw [user] at known
  have notFirst : "operator" ≠ (Terminal.backendOf .default).config.shell.user := by decide
  exact ⟨rfl, game, started, user, known.resolve_left notFirst⟩

end PuzzleShell.Game

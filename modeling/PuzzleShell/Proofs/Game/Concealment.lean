import PuzzleShell.Proofs.Command.Attempt
import PuzzleShell.Proofs.Game.Progress

/-!
# Lines that must not be echoed

All that a game makes of a line that is typed without an echo is whether it is the password that is
asked for.  Nothing else of it stays, neither in the transcript nor anywhere else, so two ways of
handling a game that differ only in such lines lead to the same game.
-/

namespace PuzzleShell

namespace Game

variable {σ : Type} {backend : Backend} {game : Game σ} {tool : Tool} {first second : String}

theorem typed_of_active (backend : Backend) (line : String) (active : game.tool = some tool) :
    game.typed backend line =
      Registry.perform tool.commandName (tool.advance backend line)
        { game.turn with tool := none } :=
  Registry.submit_of_active (Registry.ofLayer game.session.layer) backend line active

theorem typed_congr (active : game.tool = some tool) (masks : tool.masksInput = true)
    (alike : tool.unlocks backend.config game.session.user first =
      tool.unlocks backend.config game.session.user second) :
    game.typed backend first = game.typed backend second := by
  have same := Tool.advance_congr { game.turn with tool := none } masks alike
  rw [typed_of_active backend first active, typed_of_active backend second active,
    Registry.perform, Registry.perform, same]

theorem typed_ne (active : game.tool = some tool) (masks : tool.masksInput = true)
    (opens : tool.unlocks backend.config game.session.user first = true)
    (wrong : tool.unlocks backend.config game.session.user second = false) :
    game.typed backend first ≠ game.typed backend second := by
  intro same
  have welcomed := Registry.fst_perform_of_ok tool.commandName
    (Tool.advance_of_unlocks { game.turn with tool := none } masks opens)
  have refused := Registry.submit_of_failed (Registry.ofLayer game.session.layer)
    (show game.turn.tool = some tool from active) (Tool.attempt?_of_not_unlocks masks wrong)
  rw [← typed_of_active backend first active, same, typed, refused] at welcomed
  exact Tool.assent_ne_refusal _ masks _ (Output.text.inj welcomed).symm

/-- What is made of a line without an echo tells whether it is the right password, and no more. -/
theorem typed_eq_iff (active : game.tool = some tool) (masks : tool.masksInput = true) :
    game.typed backend first = game.typed backend second ↔
      tool.unlocks backend.config game.session.user first =
        tool.unlocks backend.config game.session.user second := by
  refine ⟨fun same => ?_, typed_congr active masks⟩
  cases opens : tool.unlocks backend.config game.session.user first with
  | true =>
      cases wrong : tool.unlocks backend.config game.session.user second with
      | true => rfl
      | false => exact absurd same (typed_ne active masks opens wrong)
  | false =>
      cases right : tool.unlocks backend.config game.session.user second with
      | true => exact absurd same.symm (typed_ne active masks right opens)
      | false => rfl

variable [Store σ]

/-- A line that is not echoed only leaves what is made of it. -/
theorem submit_congr (active : game.tool = some tool) (masks : tool.masksInput = true)
    (alike : tool.unlocks backend.config game.session.user first =
      tool.unlocks backend.config game.session.user second) :
    game.submit backend first = game.submit backend second := by
  by_cases enabled : game.inputEnabled = true
  · have hidden : game.tool.any Tool.masksInput = true := by
      rw [active]
      exact masks
    rw [submit_of_inputEnabled backend first enabled, submit_of_inputEnabled backend second enabled,
      if_pos hidden, if_pos hidden, typed_congr active masks alike]
  · have disabled := Bool.not_eq_true _ ▸ enabled
    rw [submit_of_not_inputEnabled disabled, submit_of_not_inputEnabled disabled]

/--
Two ways of handling a game that differ only in lines that are typed without an echo, each of which
is the password that is asked for if the other is.
-/
inductive Concealed (backend : Backend) : Game σ → List Handling → List Handling → Prop where
  | done (game : Game σ) : Concealed backend game [] []
  | same {game : Game σ} (handling : Handling) {rest others : List Handling}
      (later : Concealed backend (game.handle backend handling) rest others) :
      Concealed backend game (handling :: rest) (handling :: others)
  | hidden {game : Game σ} {tool : Tool} {first second : String} {rest others : List Handling}
      (active : game.tool = some tool) (masks : tool.masksInput = true)
      (alike : tool.unlocks backend.config game.session.user first =
        tool.unlocks backend.config game.session.user second)
      (later : Concealed backend (game.submit backend first).game rest others) :
      Concealed backend game (.call (.submit first) :: rest) (.call (.submit second) :: others)

/-- What is typed without an echo cannot be found out from the game, however it goes on. -/
theorem Concealed.handleAll_eq {handlings others : List Handling}
    (concealed : Concealed backend game handlings others) :
    game.handleAll backend handlings = game.handleAll backend others := by
  induction concealed with
  | done => rfl
  | same handling later ih => exact ih
  | @hidden game tool first second rest others active masks alike later ih =>
      calc (game.submit backend first).game.handleAll backend rest
          = (game.submit backend first).game.handleAll backend others := ih
        _ = (game.submit backend second).game.handleAll backend others := by
            rw [submit_congr active masks alike]

/--
Passwords do not leak.  Where a tool asks for a line that is not echoed, two lines that are both the
password of the account that is checked, or both not, have the same outcome: everything that makes
the game up is the same, and so are the questions that the content oracle was asked.  Where nothing
is checked, as for a connection, any two lines are alike.
-/
theorem submit_eq_of_alike (active : game.tool = some tool) (masks : tool.masksInput = true)
    (alike : ∀ account ∈ tool.account? backend.config game.session.user,
      (first = account.password ↔ second = account.password)) :
    game.submit backend first = game.submit backend second :=
  submit_congr active masks (Tool.unlocks_eq_of_forall alike)

/-- Two passwords that are not the operator's own, one of which is another user's. -/
theorem submit_eq_of_alike_operator :
    ∃ game, start standardBackend.config (⟨[]⟩ : MemoryStore) = .ok game ∧
      let asking := game.play standardBackend [.submit "login", .submit "operator"]
      asking.inputEnabled = true ∧ asking.tool = some (.login (some "operator")) ∧
        (Tool.login (some "operator")).masksInput = true ∧
        (∀ account ∈ (Tool.login (some "operator")).account? standardBackend.config
            asking.session.user,
          ("guest" = account.password ↔ "tr0ub4dor&3" = account.password)) ∧
        asking.submit standardBackend "guest" = asking.submit standardBackend "tr0ub4dor&3" := by
  obtain ⟨game, started, -⟩ :=
    @exists_start MemoryStore _ standardBackend.config rfl ⟨[]⟩
  have computed : (start standardBackend.config (⟨[]⟩ : MemoryStore)).toOption.map (fun game =>
      ((game.play standardBackend [.submit "login", .submit "operator"]).inputEnabled,
        (game.play standardBackend [.submit "login", .submit "operator"]).tool)) =
        some (true, some (.login (some "operator"))) := by
    decide +kernel
  rw [started] at computed
  simp only [Except.toOption, Option.map_some, Option.some.injEq, Prod.mk.injEq] at computed
  obtain ⟨enabled, active⟩ := computed
  have alike : ∀ account ∈ (Tool.login (some "operator")).account? standardBackend.config
      (game.play standardBackend [.submit "login", .submit "operator"]).session.user,
      ("guest" = account.password ↔ "tr0ub4dor&3" = account.password) := by
    intro account known
    have operator : standardBackend.config.account? "operator" =
        some ⟨"operator", "Tr0ub4dor&3", "/home/operator"⟩ := by decide
    cases known.symm.trans operator
    decide
  exact ⟨game, started, enabled, active, rfl, alike, submit_eq_of_alike active rfl alike⟩

end Game

end PuzzleShell

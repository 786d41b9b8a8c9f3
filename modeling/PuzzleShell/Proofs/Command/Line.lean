import PuzzleShell.Proofs.Command.Effect

/-!
# What a line makes of a turn

A line goes to the active tool, which takes one of its turns, or it is a command line, which names
a command or does nothing but count.  Of all that may happen only a login with the right password
makes someone else of the player, and nothing that happens leads to the other layer.
-/

namespace PuzzleShell

def Config.Admits (config : Config) (user password : String) : Prop :=
  ∃ account, config.account? user = some account ∧ account.password = password

/-- What a line makes of a turn when it goes to a tool, which has left its slot by then. -/
inductive Tool.Effect (backend : Backend) (line : String) : Tool → Turn → Turn → Prop where
  /-- The line leads nowhere, and the attempt may count as a failed one. -/
  | refused {tool : Tool} {turn : Turn} (failures : Nat)
      (wrong : ∀ user, tool = .login (some user) → ¬ backend.config.Admits user line) :
      Effect backend line tool turn
        { turn with session := { turn.session with escalationFailures := failures } }
  /-- The line is taken for a user name, and the tool goes on to ask for the password. -/
  | named {turn : Turn} :
      Effect backend line (.login none) turn
        { turn with tool := some (.login (some (Text.trim line))) }
  /-- The line is the password of the user that was named. -/
  | loggedIn {user : String} {account : Account} {turn : Turn}
      (known : backend.config.account? user = some account) (right : account.password = line) :
      Effect backend line (.login (some user)) turn
        { turn with
          session := { turn.session with
            user := user
            escalationFailures := 0
            cwd :=
              if turn.tree.hasDirectory account.home then account.home else turn.session.cwd } }
  /-- The echo service has replied, maybe with what it asked the oracle for. -/
  | replied {turn : Turn} (ids : List String) :
      Effect backend line .payload turn { turn with asked := turn.asked ++ ids }

namespace Tool

open PuzzleShell.Action

variable {backend : Backend} {line : String} {tool : Tool} {turn after : Turn}

theorem effect_refuse (message : String)
    (wrong : ∀ user, tool = .login (some user) → ¬ backend.config.Admits user line) :
    tool.Effect backend line turn ((refuse backend message).run.run turn).2 := by
  have counted : ((refuse backend message).run.run turn).2 =
      { turn with session := (turn.session.recordFailure backend.config.maxFailures).2 } := rfl
  rw [counted, Session.recordFailure]
  split <;> exact .refused _ wrong

theorem user_of_account? {config : Config} {user : String} {account : Account}
    (known : config.account? user = some account) : account.user = user := by
  simpa using List.find?_some known

theorem effect_logIn (user : String) :
    (login (some user)).Effect backend line turn ((logIn backend user line).run.run turn).2 := by
  unfold logIn
  cases found : (backend.config.account? user).filter (·.password = line) with
  | none =>
      refine effect_refuse _ ?_
      rintro user ⟨⟩ ⟨account, known, right⟩
      simp [known, right] at found
  | some account =>
      obtain ⟨known, right⟩ := Option.filter_eq_some_iff.1 found
      have loggedIn := @Effect.loggedIn backend line user account turn known (by simpa using right)
      rw [← user_of_account? known] at loggedIn ⊢
      exact loggedIn

/-- What a tool does with a line. -/
theorem effect_advance (backend : Backend) (line : String) (tool : Tool) (turn : Turn) :
    tool.Effect backend line turn ((tool.advance backend line).run.run turn).2 := by
  cases tool with
  | login name =>
      cases name with
      | none =>
          unfold advance
          dsimp only
          split
          · exact effect_refuse _ nofun
          · exact .named
      | some user => exact effect_logIn user
  | sudoPassword command =>
      unfold advance checkSudo
      rw [run_bind_of_ok (run_user turn)]
      split
      · exact .refused turn.session.escalationFailures nofun
      · exact effect_refuse _ nofun
  | sshPassword target => exact effect_refuse _ nofun
  | payload =>
      unfold advance reply
      dsimp only
      split
      · rw [run_bind, run_inquire]
        generalize Inquiry.ask backend.content leakId = inquiry
        obtain ⟨ids, outcome⟩ := inquiry
        cases outcome <;> exact .replied ids
      · have replied := @Effect.replied backend line turn []
        rw [List.append_nil] at replied
        exact replied

/-- Whatever becomes of a line that goes to a tool, it has nothing to do with the tree. -/
theorem Effect.tree (effect : tool.Effect backend line turn after) : after.tree = turn.tree := by
  cases effect <;> rfl

theorem Effect.layer (effect : tool.Effect backend line turn after) :
    after.session.layer = turn.session.layer := by
  cases effect <;> rfl

/-- Only a login makes someone else of the player, and it does so just with the right password. -/
theorem Effect.user_cases (effect : tool.Effect backend line turn after) :
    tool = .login (some after.session.user) ∧ backend.config.Admits after.session.user line ∨
      after.session.user = turn.session.user ∧
        ∀ user, tool = .login (some user) → ¬ backend.config.Admits user line := by
  cases effect with
  | refused failures wrong => exact Or.inr ⟨rfl, wrong⟩
  | named => exact Or.inr ⟨rfl, nofun⟩
  | loggedIn known right => exact Or.inl ⟨rfl, _, known, right⟩
  | replied ids => exact Or.inr ⟨rfl, nofun⟩

end Tool

namespace Command

variable {backend : Backend} {command : Command} {words : List String} {turn after : Turn}

theorem Effect.player (effect : Effect backend command words turn after) :
    after.session.user = turn.session.user ∧ after.session.layer = turn.session.layer := by
  cases effect with
  | steps steps =>
      induction steps with
      | refl => exact ⟨rfl, rfl⟩
      | tail steps step ih => cases step <;> exact ih
  | move | copy | encode | decode | unpack => exact ⟨rfl, rfl⟩

end Command

namespace Registry

variable {registry : Registry} {backend : Backend} {line : String} {turn after : Turn}

inductive Submitted (registry : Registry) (backend : Backend) (line : String) (turn : Turn) :
    Turn → Prop where
  /-- The line goes to the active tool. -/
  | tool {tool : Tool} {after : Turn} (active : turn.tool = some tool)
      (effect : tool.Effect backend line { turn with tool := none } after) :
      Submitted registry backend line turn after
  /-- The line names a command. -/
  | command {name : String} {command : Command} {words : List String} {after : Turn}
      (inactive : turn.tool = none) (means : registry.Means line name command words)
      (effect : command.Effect backend words (withStreak turn 0) after) :
      Submitted registry backend line turn after
  /-- The line is blank, asks for help or names no command. -/
  | idle (inactive : turn.tool = none) (streak : Nat) :
      Submitted registry backend line turn (withStreak turn streak)

theorem submitted (layer : Layer) (backend : Backend) (line : String) (turn : Turn) :
    (ofLayer layer).Submitted backend line turn
      ((ofLayer layer).submit backend line turn).2 := by
  unfold submit
  cases active : turn.tool with
  | some tool =>
      dsimp only
      rw [snd_perform]
      exact .tool active (tool.effect_advance backend line _)
  | none =>
      dsimp only
      have done := dispatched (ofLayer layer) backend line turn
      generalize (ofLayer layer).dispatch backend line turn = result at done ⊢
      cases done with
      | idle streak stays => exact .idle active streak
      | @command name command words means =>
          rw [snd_perform]
          refine .command active means ?_
          rcases acts_of_find? means.found with rfl | acts
          · exact (Command.acts_ssh backend words _).1
          · exact (acts backend words _).1

namespace Submitted

/-- No line leads to the other layer by itself. -/
theorem layer (submitted : registry.Submitted backend line turn after) :
    after.session.layer = turn.session.layer := by
  cases submitted with
  | tool active effect => exact effect.layer
  | command inactive means effect => exact effect.player.2
  | idle inactive streak => rfl

/-- A line makes the user of a waiting login of the player if it is their password, or nobody. -/
theorem user_cases (submitted : registry.Submitted backend line turn after) :
    turn.tool = some (.login (some after.session.user)) ∧
        backend.config.Admits after.session.user line ∨
      after.session.user = turn.session.user ∧
        ∀ user, turn.tool = some (.login (some user)) → ¬ backend.config.Admits user line := by
  cases submitted with
  | tool active effect =>
      rw [active]
      simpa only [Option.some.injEq] using effect.user_cases
  | command inactive means effect =>
      refine Or.inr ⟨effect.player.1, fun user waits => ?_⟩
      rw [inactive] at waits
      cases waits
  | idle inactive streak =>
      refine Or.inr ⟨rfl, fun user waits => ?_⟩
      rw [inactive] at waits
      cases waits

end Submitted

end Registry

end PuzzleShell

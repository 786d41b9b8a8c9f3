import PuzzleShell.Proofs.Command.Line

/-!
# Attempts at becoming someone else

A tool that asks for a password takes the line it gets for an attempt.  All that matters about the
line is whether it is the password of the account that is checked, so two lines that are alike in
that have the same effect.  What an attempt does to the count of failures is told by its outcome,
and nothing else that is typed touches the count.
-/

namespace PuzzleShell

inductive Attempt where
  | failed
  | loggedIn
  deriving DecidableEq, Repr

namespace Tool

def account? (config : Config) (acting : String) : Tool → Option Account
  | .login user => user.bind config.account?
  | .sudoPassword _ => config.account? acting
  | .sshPassword _ | .payload => none

def unlocks (config : Config) (acting line : String) (tool : Tool) : Bool :=
  (tool.account? config acting).any (·.password = line)

/-- The attempt that a line makes.  With `sudo` the right password makes nobody someone else. -/
def attempt? (config : Config) (acting line : String) (tool : Tool) : Option Attempt :=
  match tool with
  | .login none => if Text.trim line = "" then some .failed else none
  | .login (some _) => if tool.unlocks config acting line then some .loggedIn else some .failed
  | .sudoPassword _ => if tool.unlocks config acting line then none else some .failed
  | .sshPassword _ => some .failed
  | .payload => none

def refusal : Tool → String
  | .login _ => "Login incorrect"
  | .sudoPassword _ => "Sorry, try again."
  | .sshPassword _ => "Permission denied, please try again."
  | .payload => ""

/-- The answer to the right password; there is none for a tool without a right one. -/
def assent (acting : String) : Tool → String
  | .login user => "Welcome, " ++ user.getD "" ++ "."
  | .sudoPassword _ => acting ++ " is not in the sudoers file. This incident will be reported."
  | .sshPassword _ | .payload => ""

open PuzzleShell.Action

variable {backend : Backend} {line : String} {tool : Tool}

theorem unlocks_iff {config : Config} {acting : String} :
    tool.unlocks config acting line = true ↔
      ∃ account ∈ tool.account? config acting, account.password = line := by
  simp [unlocks, Option.any_eq_true]

/-- Two lines are alike to a check if each is the password that is asked for when the other is. -/
theorem unlocks_eq_of_forall {config : Config} {acting first second : String}
    (alike : ∀ account ∈ tool.account? config acting,
      (first = account.password ↔ second = account.password)) :
    tool.unlocks config acting first = tool.unlocks config acting second := by
  rw [Bool.eq_iff_iff, unlocks_iff, unlocks_iff]
  constructor
  · rintro ⟨account, known, right⟩
    exact ⟨account, known, ((alike account known).1 right.symm).symm⟩
  · rintro ⟨account, known, right⟩
    exact ⟨account, known, ((alike account known).2 right.symm).symm⟩

/-- The right password is checked against the account of the acting user. -/
theorem run_checkSudo (backend : Backend) (command line : String) (turn : Turn) :
    (checkSudo backend line).run.run turn =
      if (sudoPassword command).unlocks backend.config turn.session.user line then
        (.ok (.text (turn.session.user ++
          " is not in the sudoers file. This incident will be reported.")), turn)
      else (refuse backend "Sorry, try again.").run.run turn := by
  unfold checkSudo
  rw [run_bind_of_ok (run_user turn), unlocks, account?]
  split <;> rfl

theorem logIn_of_not_unlocks {user acting : String}
    (wrong : (login (some user)).unlocks backend.config acting line = false) :
    logIn backend user line = refuse backend "Login incorrect" := by
  have nobody : (backend.config.account? user).filter (·.password = line) = none := by
    rw [Option.filter_eq_none_iff]
    intro account known right
    have opens : (login (some user)).unlocks backend.config acting line = true :=
      unlocks_iff.2 ⟨account, known, of_decide_eq_true right⟩
    rw [wrong] at opens
    cases opens
  unfold logIn
  rw [nobody]

/-- The right password makes a login, which is welcomed and ends the row of failures. -/
theorem run_logIn_of_unlocks {user acting : String} (turn : Turn)
    (opens : (login (some user)).unlocks backend.config acting line = true) :
    ((logIn backend user line).run.run turn).1 = .ok (.text ("Welcome, " ++ user ++ ".")) ∧
      ((logIn backend user line).run.run turn).2.session.escalationFailures = 0 := by
  obtain ⟨account, known, right⟩ := unlocks_iff.1 opens
  have found : (backend.config.account? user).filter (·.password = line) = some account :=
    Option.filter_eq_some_iff.2 ⟨known, decide_eq_true right⟩
  unfold logIn
  rw [found]
  exact ⟨rfl, rfl⟩

/-- The echo service has nothing to do with the player. -/
theorem keeps_session_reply (backend : Backend) (line : String) (start : Turn) :
    (reply backend line).Keeps (fun turn => turn.session = start.session) fun _ => True := by
  unfold reply
  dsimp only
  split
  · exact (Keeps.inquire (fun _ _ same => same) _).bind fun _ _ => Keeps.ends trivial
  · exact Keeps.ends trivial

/-- A failed attempt is refused, whatever it was that failed. -/
theorem advance_of_failed (turn : Turn)
    (failed : tool.attempt? backend.config turn.session.user line = some .failed) :
    (tool.advance backend line).run.run turn = (refuse backend tool.refusal).run.run turn := by
  cases tool with
  | login name =>
      cases name with
      | none =>
          have blank : Text.trim line = "" := by simpa [attempt?] using failed
          unfold advance
          dsimp only
          rw [if_pos blank, refusal]
      | some user =>
          have wrong : (login (some user)).unlocks backend.config turn.session.user line =
              false := by
            simpa [attempt?] using failed
          rw [advance, logIn_of_not_unlocks wrong, refusal]
  | sudoPassword command =>
      have wrong : (sudoPassword command).unlocks backend.config turn.session.user line =
          false := by
        simpa [attempt?] using failed
      rw [advance, run_checkSudo backend command, wrong, refusal]
      rfl
  | sshPassword target => rfl
  | payload => cases failed

/-- A login ends the row of failed attempts. -/
theorem failures_advance_of_loggedIn (turn : Turn)
    (logged : tool.attempt? backend.config turn.session.user line = some .loggedIn) :
    ((tool.advance backend line).run.run turn).2.session.escalationFailures = 0 := by
  cases tool with
  | login name =>
      cases name with
      | none => simp [attempt?] at logged
      | some user =>
          have opens : (login (some user)).unlocks backend.config turn.session.user line =
              true := by
            simpa [attempt?] using logged
          exact (run_logIn_of_unlocks turn opens).2
  | sudoPassword command => simp [attempt?] at logged
  | sshPassword target | payload => cases logged

/-- A line that is no attempt leaves the count of failed ones alone. -/
theorem failures_advance_of_none (turn : Turn)
    (other : tool.attempt? backend.config turn.session.user line = none) :
    ((tool.advance backend line).run.run turn).2.session.escalationFailures =
      turn.session.escalationFailures := by
  cases tool with
  | login name =>
      cases name with
      | none =>
          have named : Text.trim line ≠ "" := by simpa [attempt?] using other
          unfold advance
          dsimp only
          rw [if_neg named]
          rfl
      | some user =>
          simp only [attempt?] at other
          split at other <;> cases other
  | sudoPassword command =>
      have right : (sudoPassword command).unlocks backend.config turn.session.user line = true := by
        simpa [attempt?] using other
      rw [advance, run_checkSudo backend command, right, if_pos rfl]
  | sshPassword target => cases other
  | payload =>
      exact congrArg Session.escalationFailures (keeps_session_reply backend line turn turn rfl).1

/-- A line that is not echoed either is the password that is asked for or makes a failed attempt. -/
theorem attempt?_of_not_unlocks {config : Config} {acting : String}
    (masks : tool.masksInput = true) (wrong : tool.unlocks config acting line = false) :
    tool.attempt? config acting line = some .failed := by
  cases tool with
  | login name =>
      cases name with
      | none => cases masks
      | some user => simp [attempt?, wrong]
  | sudoPassword command => simp [attempt?, wrong]
  | sshPassword target => rfl
  | payload => cases masks

theorem advance_of_unlocks (turn : Turn) (masks : tool.masksInput = true)
    (opens : tool.unlocks backend.config turn.session.user line = true) :
    ((tool.advance backend line).run.run turn).1 = .ok (.text (tool.assent turn.session.user)) := by
  cases tool with
  | login name =>
      cases name with
      | none => cases masks
      | some user =>
          exact (run_logIn_of_unlocks turn opens).1
  | sudoPassword command =>
      rw [advance, run_checkSudo backend command, opens, if_pos rfl, assent]
  | sshPassword target => cases opens
  | payload => cases masks

/-- The right password and a wrong one are told apart, whatever the names of the users are. -/
theorem assent_ne_refusal (acting : String) (masks : tool.masksInput = true) (full : Bool) :
    tool.assent acting ≠
      if full then tool.refusal ++ "\n" ++ lockoutNotice else tool.refusal := by
  cases tool with
  | login name =>
      intro same
      have begins := congrArg (fun text => text.toList.head?) same
      cases full <;> simp [assent, refusal] at begins
  | sudoPassword command =>
      intro same
      have ends : (assent acting (.sudoPassword command)).toList.reverse[3]? = some 't' := by
        simp [assent]
      rw [same] at ends
      cases full <;> simp [refusal, lockoutNotice] at ends
  | sshPassword target =>
      intro same
      cases full <;> simp [assent, refusal] at same
  | payload => cases masks

/-- A masked line only counts as right or wrong. -/
theorem advance_congr {first second : String} (turn : Turn) (masks : tool.masksInput = true)
    (alike : tool.unlocks backend.config turn.session.user first =
      tool.unlocks backend.config turn.session.user second) :
    (tool.advance backend first).run.run turn = (tool.advance backend second).run.run turn := by
  cases opens : tool.unlocks backend.config turn.session.user first with
  | false =>
      rw [opens] at alike
      rw [advance_of_failed turn (attempt?_of_not_unlocks masks opens),
        advance_of_failed turn (attempt?_of_not_unlocks masks alike.symm)]
  | true =>
      rw [opens] at alike
      obtain ⟨account, known, right⟩ := unlocks_iff.1 opens
      obtain ⟨other, knownToo, rightToo⟩ := unlocks_iff.1 alike.symm
      have same : first = second := by
        rw [← right, ← rightToo, Option.mem_unique known knownToo]
      rw [same]

end Tool

namespace Command

variable {backend : Backend} {command : Command} {words : List String} {turn after : Turn}

/-- Commands leave the count of failed attempts alone; those that ask for a password only ask. -/
theorem Effect.failures (effect : Effect backend command words turn after) :
    after.session.escalationFailures = turn.session.escalationFailures := by
  cases effect with
  | steps steps =>
      induction steps with
      | refl => rfl
      | tail steps step ih => cases step <;> exact ih
  | move | copy | encode | decode | unpack => rfl

end Command

namespace Registry

theorem fst_perform_of_ok (name : String) {action : Action Output} {turn : Turn}
    {output : Output} (ran : (action.run.run turn).1 = .ok output) :
    (perform name action turn).1 = output := by
  unfold perform
  rcases outcome : action.run.run turn with ⟨result, after⟩
  rw [outcome] at ran
  cases ran
  rfl

variable {backend : Backend} {line : String} {turn : Turn} {tool : Tool}

def attempt? (config : Config) (turn : Turn) (line : String) : Option Attempt :=
  turn.tool.bind (·.attempt? config turn.session.user line)

theorem submit_of_active (registry : Registry) (backend : Backend) (line : String)
    (active : turn.tool = some tool) :
    registry.submit backend line turn =
      perform tool.commandName (tool.advance backend line) { turn with tool := none } := by
  rw [submit, active]

/-- A failed attempt is counted and refused. -/
theorem submit_of_failed (registry : Registry) (active : turn.tool = some tool)
    (failed : tool.attempt? backend.config turn.session.user line = some .failed) :
    registry.submit backend line turn =
      (.text (if (turn.session.recordFailure backend.config.maxFailures).1 then
          tool.refusal ++ "\n" ++ Tool.lockoutNotice else tool.refusal),
        { turn with
          tool := none
          session := (turn.session.recordFailure backend.config.maxFailures).2 }) := by
  have refused := Tool.advance_of_failed { turn with tool := none } failed
  rw [submit_of_active registry backend line active, perform, refused]
  rfl

/-- What a line does to the count of failed attempts is told by the attempt that it makes. -/
theorem failures_submit (layer : Layer) (backend : Backend) (line : String) (turn : Turn) :
    ((ofLayer layer).submit backend line turn).2.session.escalationFailures =
      match attempt? backend.config turn line with
      | some .failed =>
          (turn.session.recordFailure backend.config.maxFailures).2.escalationFailures
      | some .loggedIn => 0
      | none => turn.session.escalationFailures := by
  unfold attempt?
  cases active : turn.tool with
  | none =>
      have submitted := Registry.submitted layer backend line turn
      generalize ((ofLayer layer).submit backend line turn).2 = after at submitted ⊢
      cases submitted with
      | tool known effect =>
          rw [active] at known
          cases known
      | command inactive means effect => exact effect.failures
      | idle inactive streak => rfl
  | some tool =>
      rw [Option.bind_some]
      cases made : tool.attempt? backend.config turn.session.user line with
      | none =>
          rw [submit_of_active _ backend line active, snd_perform]
          exact Tool.failures_advance_of_none { turn with tool := none } made
      | some attempt =>
          cases attempt with
          | failed => rw [submit_of_failed _ active made]
          | loggedIn =>
              rw [submit_of_active _ backend line active, snd_perform]
              exact Tool.failures_advance_of_loggedIn { turn with tool := none } made

end Registry

end PuzzleShell

import PuzzleShell.Proofs.Command.Attempt
import PuzzleShell.World

/-!
# The turns of a tool

A tool declares how many lines it takes.  Each line that it gets takes one of its turns, whatever
the line says and however it is answered, and with the last one the slot is empty.  There is one
exception: a login that waits for a user name declares a line for the password as well, but gives up
if it is given no name.
-/

namespace PuzzleShell

namespace Tool

def next? (line : String) : Tool → Option Tool
  | .login none =>
      if Text.trim line = "" then none else some (.login (some (Text.trim line)))
  | _ => none

/-- Whether a tool gives up with a line, although it has declared a further turn. -/
def GivesUp (line : String) (tool : Tool) : Prop :=
  tool = .login none ∧ Text.trim line = ""

def turnsLeft (slot : Option Tool) : Nat :=
  slot.elim 0 turnsRemaining

variable {tool following : Tool} {backend : Backend} {line : String}

theorem turnsRemaining_pos (tool : Tool) : 0 < tool.turnsRemaining := by
  unfold turnsRemaining
  split <;> decide

theorem next?_of_givesUp (givesUp : tool.GivesUp line) : tool.next? line = none := by
  obtain ⟨rfl, blank⟩ := givesUp
  exact if_pos blank

/-- A tool that follows on another one has been given what it needs. -/
theorem not_givesUp_of_next? (follows : tool.next? line = some following) (answer : String) :
    ¬ following.GivesUp answer := by
  rintro ⟨rfl, -⟩
  unfold next? at follows
  split at follows
  · split at follows <;> cases follows
  · cases follows

/-- A line takes one turn. -/
theorem turnsLeft_next? (goesOn : ¬ tool.GivesUp line) :
    turnsLeft (tool.next? line) + 1 = tool.turnsRemaining := by
  cases tool with
  | login name =>
      cases name with
      | none =>
          have named : Text.trim line ≠ "" := fun blank => goesOn ⟨rfl, blank⟩
          rw [next?, if_neg named]
          rfl
      | some user => rfl
  | sudoPassword command => rfl
  | sshPassword target => rfl
  | payload => rfl

/-- The slot after a tool has taken a line. -/
theorem tool_advance (backend : Backend) (line : String) (tool : Tool) {turn : Turn}
    (empty : turn.tool = none) :
    ((tool.advance backend line).run.run turn).2.tool = tool.next? line := by
  by_cases waits : tool = .login none
  · subst waits
    unfold advance next?
    dsimp only
    split
    · exact empty
    · rfl
  · have stays : tool.next? line = none := by
      unfold next?
      split
      · exact absurd rfl waits
      · rfl
    rw [stays]
    have effect := tool.effect_advance backend line turn
    generalize ((tool.advance backend line).run.run turn).2 = after at effect ⊢
    cases effect with
    | named => exact absurd rfl waits
    | refused | loggedIn | replied => exact empty

end Tool

/--
A line that is typed, with the commands and the backend that it meets and with what has become of
the turn since the line before.
-/
structure Typing where
  registry : Registry
  backend : Backend
  meanwhile : Turn → Turn
  line : String

namespace Typing

/-- The turn that a line meets.  Between two lines nothing touches the slot for a tool. -/
def meets (typing : Typing) (turn : Turn) : Turn :=
  { typing.meanwhile turn with tool := turn.tool }

def submit (typing : Typing) (turn : Turn) : Output × Turn :=
  typing.registry.submit typing.backend typing.line (typing.meets turn)

def run (typings : List Typing) (turn : Turn) : Turn :=
  typings.foldl (fun turn typing => (typing.submit turn).2) turn

/-- A line goes to a tool as it was typed, and no command has to do with it. -/
def GoesTo (typing : Typing) (tool : Tool) (turn : Turn) : Prop :=
  typing.submit turn =
    Registry.perform tool.commandName (tool.advance typing.backend typing.line)
      { typing.meets turn with tool := none }

def IsDispatched (typing : Typing) (turn : Turn) : Prop :=
  typing.submit turn =
    typing.registry.dispatch typing.backend typing.line (typing.meets turn)

variable {tool : Tool} {start : Turn} {typing next : Typing} {before : List Typing}

theorem goesTo_of_active (active : start.tool = some tool) (typing : Typing) :
    typing.GoesTo tool start :=
  Registry.submit_of_active typing.registry typing.backend typing.line
    (show (typing.meets start).tool = some tool from active)

theorem isDispatched_of_idle (idle : start.tool = none) (typing : Typing) :
    typing.IsDispatched start := by
  have slot : (typing.meets start).tool = none := idle
  rw [IsDispatched, submit, Registry.submit, slot]

/-- The slot after a line that went to a tool. -/
theorem tool_submit (active : start.tool = some tool) (typing : Typing) :
    (typing.submit start).2.tool = tool.next? typing.line := by
  rw [goesTo_of_active active typing, Registry.snd_perform]
  exact Tool.tool_advance typing.backend typing.line tool rfl

/-- As long as a tool has turns left, every line takes one of them. -/
theorem turnsLeft_run (active : start.tool = some tool)
    (named : ∀ answer ∈ before.head?, ¬ tool.GivesUp answer.line)
    (few : before.length ≤ tool.turnsRemaining) :
    Tool.turnsLeft (run before start).tool + before.length = tool.turnsRemaining := by
  induction before generalizing start tool with
  | nil =>
      change Tool.turnsLeft start.tool + 0 = _
      rw [active]
      rfl
  | cons answer rest ih =>
      have slot := tool_submit active answer
      have turn := Tool.turnsLeft_next? (named answer rfl)
      change Tool.turnsLeft (run rest (answer.submit start).2).tool + (rest.length + 1) = _
      rw [List.length_cons] at few
      cases follows : tool.next? answer.line with
      | none =>
          rw [follows, Tool.turnsLeft, Option.elim_none] at turn
          have empty : rest = [] := List.length_eq_zero_iff.1 (by omega)
          subst empty
          change Tool.turnsLeft (answer.submit start).2.tool + 1 = _
          rw [slot, follows]
          exact turn
      | some following =>
          rw [follows, Tool.turnsLeft, Option.elim_some] at turn
          have left := ih (slot.trans follows)
            (fun other _ => Tool.not_givesUp_of_next? follows other.line) (by omega)
          omega

/--
A tool takes as many lines as it declares, unless it is a login that is given no name.  As long as
fewer lines have been typed, the slot holds a tool with the turns that are left, and the next line
goes to it as it was typed; after that the slot is empty, and the next line is a command line.  A
login that is given no name leaves the slot empty with that line, although it has declared two.
-/
theorem takes_turns (active : start.tool = some tool) :
    (∀ (before : List Typing) (next : Typing),
      (∀ answer ∈ before.head?, ¬ tool.GivesUp answer.line) →
      (before.length < tool.turnsRemaining →
        ∃ current, (run before start).tool = some current ∧
          current.turnsRemaining + before.length = tool.turnsRemaining ∧
          next.GoesTo current (run before start)) ∧
      (before.length = tool.turnsRemaining →
        (run before start).tool = none ∧ next.IsDispatched (run before start))) ∧
    ∀ answer : Typing, tool.GivesUp answer.line →
      tool.turnsRemaining = 2 ∧ answer.GoesTo tool start ∧ (answer.submit start).2.tool = none ∧
        ∀ next : Typing, next.IsDispatched (answer.submit start).2 := by
  constructor
  · intro before next named
    constructor
    · intro few
      have left := turnsLeft_run active named (Nat.le_of_lt few)
      cases slot : (run before start).tool with
      | none =>
          rw [slot, Tool.turnsLeft, Option.elim_none] at left
          omega
      | some current =>
          rw [slot, Tool.turnsLeft, Option.elim_some] at left
          exact ⟨current, rfl, left, goesTo_of_active slot next⟩
    · intro all
      have left := turnsLeft_run active named (Nat.le_of_eq all)
      have idle : (run before start).tool = none := by
        cases slot : (run before start).tool with
        | none => rfl
        | some current =>
            rw [slot, Tool.turnsLeft, Option.elim_some] at left
            have positive := current.turnsRemaining_pos
            omega
      exact ⟨idle, isDispatched_of_idle idle next⟩
  · intro answer givesUp
    have idle : (answer.submit start).2.tool = none :=
      (tool_submit active answer).trans (Tool.next?_of_givesUp givesUp)
    refine ⟨?_, goesTo_of_active active answer, idle, isDispatched_of_idle idle⟩
    rw [givesUp.1]
    rfl

theorem tool_submit_login {turn : Turn} (known : typing.registry = .standard)
    (typed : typing.line = "login") (idle : turn.tool = none) :
    (typing.submit turn).2.tool = some (.login none) := by
  have slot : (typing.meets turn).tool = none := idle
  rw [submit, known, typed, Registry.submit, slot]
  rfl

/-- A login that gets a command line for a name and another one for a password, and a login that
gets a blank line. -/
theorem takes_turns_loginAsHelp :
    let backend : Backend := ⟨.default, fun _ => .ok "", fun _ => .ok ⟨false, none⟩⟩
    let typed (line : String) : Typing := ⟨.standard, backend, id, line⟩
    let turn : Turn := ⟨.start "guest" "/", World.standard .default, none, []⟩
    let start := ((typed "login").submit turn).2
    turn.tool = none ∧ start.tool = some (.login none) ∧ ¬ (Tool.login none).GivesUp "ls 'x" ∧
      (typed "ls 'x").GoesTo (.login none) start ∧
      (∃ current, (run [typed "ls 'x"] start).tool = some current ∧ current.turnsRemaining = 1 ∧
        (typed "help").GoesTo current (run [typed "ls 'x"] start)) ∧
      (run [typed "ls 'x", typed "help"] start).tool = none ∧
      (typed "pwd").IsDispatched (run [typed "ls 'x", typed "help"] start) ∧
      (Tool.login none).GivesUp "\t" ∧ (typed "pwd").IsDispatched (run [typed "\t"] start) := by
  intro backend typed turn start
  have started : start.tool = some (.login none) := tool_submit_login rfl rfl rfl
  have named : ¬ (Tool.login none).GivesUp "ls 'x" := fun givesUp => absurd givesUp.2 (by decide)
  have blank : (Tool.login none).GivesUp "\t" := ⟨rfl, by decide⟩
  clear_value start
  have goesOn (lines : List Typing) :
      ∀ answer ∈ (typed "ls 'x" :: lines).head?, ¬ (Tool.login none).GivesUp answer.line := by
    rintro answer ⟨⟩
    exact named
  obtain ⟨turns, ends⟩ := takes_turns started
  obtain ⟨current, slot, -, goes⟩ := (turns [] (typed "ls 'x") nofun).1 (by decide)
  cases started.symm.trans slot
  obtain ⟨following, second, left, goesToo⟩ :=
    (turns [typed "ls 'x"] (typed "help") (goesOn [])).1 (by decide)
  obtain ⟨idle, dispatched⟩ :=
    (turns [typed "ls 'x", typed "help"] (typed "pwd") (goesOn _)).2 rfl
  obtain ⟨-, -, -, after⟩ := ends (typed "\t") blank
  exact ⟨rfl, started, named, goes, ⟨following, second, Nat.succ.inj left, goesToo⟩, idle,
    dispatched, blank, after (typed "pwd")⟩

/-- Not every tool that a command line starts takes as many lines as it declares: a login that is
given no name is over before its second line. -/
theorem not_takes_turns :
    ¬ ∀ (opening : Typing) (turn : Turn) (tool : Tool),
      turn.tool = none → (opening.submit turn).2.tool = some tool →
      ∀ before : List Typing, before.length < tool.turnsRemaining →
        ∃ current, (run before (opening.submit turn).2).tool = some current ∧
          current.turnsRemaining + before.length = tool.turnsRemaining := by
  intro always
  let backend : Backend := ⟨.default, fun _ => .ok "", fun _ => .ok ⟨false, none⟩⟩
  let typed (line : String) : Typing := ⟨.standard, backend, id, line⟩
  let turn : Turn := ⟨.start "guest" "/", World.standard .default, none, []⟩
  have started : ((typed "login").submit turn).2.tool = some (.login none) :=
    tool_submit_login rfl rfl rfl
  have idle : ((typed "").submit ((typed "login").submit turn).2).2.tool = none :=
    (tool_submit started (typed "")).trans (Tool.next?_of_givesUp ⟨rfl, by decide⟩)
  have claimed := always (typed "login") turn (.login none) rfl started [typed ""] (by decide)
  clear_value turn
  obtain ⟨current, slot, -⟩ := claimed
  rw [run, List.foldl_cons, List.foldl_nil, idle] at slot
  cases slot

end Typing

end PuzzleShell

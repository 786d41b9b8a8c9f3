import PuzzleShell.Command.Conversation
import PuzzleShell.Text.Pad

/-!
# The registry

A registry holds commands under their names and the aliases of those names.  An alias is looked up
first, so it hides a command of the same name.  Every line ends in an output: unknown names,
faults and breakdowns are worded here.
-/

namespace PuzzleShell

structure Registry where
  commands : Roster Command
  /-- The command name that each alias stands for. -/
  aliases : Roster String

namespace Registry

def empty : Registry := ⟨[], []⟩

/-- Add a command.  It takes the place of a command of its name, and its aliases those of others. -/
def register (registry : Registry) (command : Command) : Registry where
  commands := Roster.put command.name command registry.commands
  aliases := command.aliases.foldl (fun known other => Roster.put other command.name known)
    registry.aliases

def ofList (commands : List Command) : Registry :=
  commands.foldl register empty

def find? (registry : Registry) (name : String) : Option Command :=
  Roster.get? ((Roster.get? name registry.aliases).getD name) registry.commands

def has (registry : Registry) (name : String) : Bool :=
  (registry.find? name).isSome

def sorted (texts : List String) : List String :=
  texts.mergeSort fun a b => decide (a ≤ b)

def names (registry : Registry) : List String :=
  sorted (Roster.names registry.commands)

def describe (command : Command) : String :=
  command.name ++ " (" ++ command.category ++ ")\n  " ++ command.description ++
    "\n  Usage: " ++ command.usage ++
    (if command.aliases.isEmpty then ""
     else "\n  Aliases: " ++ ", ".intercalate command.aliases)

def categories (registry : Registry) : List String :=
  sorted (registry.commands.map fun entry => entry.2.category).eraseDups

def inCategory (registry : Registry) (category : String) : List Command :=
  (registry.names.filterMap fun name => Roster.get? name registry.commands).filter
    (·.category = category)

def overviewOf (registry : Registry) (category : String) : String :=
  "\n  [" ++ category ++ "]\n" ++
    "".intercalate ((registry.inCategory category).map fun command =>
      "    " ++ Text.padRight 12 command.name ++ " " ++ command.description ++ "\n")

/-- The overview of all commands; it counts the help itself. -/
def overview (registry : Registry) : String :=
  "Commands (" ++ toString (registry.commands.length + 1) ++ "):\n" ++
    "".intercalate (registry.categories.map registry.overviewOf) ++
    "\n    help         List commands, or 'help <command>' for details."

/-- The names under which the help is reached.  No command can take them over. -/
def isHelp (name : String) : Bool :=
  name = "help" || name = "?"

def help (registry : Registry) : List String → String
  | [] => registry.overview
  | name :: _ =>
      match registry.find? name with
      | some command => describe command
      | none => "help: " ++ (Complaint.noHelp name).message

def faultNotice (name : String) : String :=
  name ++ ": internal fault, operation aborted"

/-- Carry an action out under a name.  Only mistakes of the player are shown to them. -/
def perform (name : String) (action : Action Output) (turn : Turn) : Output × Turn :=
  match action.run.run turn with
  | (.ok output, after) => (output, after)
  | (.error (.fault fault), after) =>
      (.text (if fault.isUserMistake then name ++ ": " ++ fault.message else faultNotice name),
        after)
  | (.error .crash, after) => (.text (faultNotice name), after)

def withStreak (turn : Turn) (streak : Nat) : Turn :=
  { turn with session := { turn.session with unknownStreak := streak } }

def run (registry : Registry) (backend : Backend) (turn : Turn) : List String → Output × Turn
  | [] => (.silent, turn)
  | name :: words =>
      if isHelp name then (.text (registry.help words), withStreak turn 0)
      else
        match registry.find? name with
        | none =>
            (.text (name ++ ": command not found"),
              withStreak turn (Session.nextCount turn.session.unknownStreak))
        | some command => perform name (command.run backend words) (withStreak turn 0)

def dispatch (registry : Registry) (backend : Backend) (line : String) (turn : Turn) :
    Output × Turn :=
  match CommandLine.tokenize (Text.trim line) with
  | .error complaint => (.text ("deepshell: " ++ complaint.message), turn)
  | .ok words => registry.run backend turn words

/-- Give a line to the active tool, or carry it out as a command line if there is none. -/
def submit (registry : Registry) (backend : Backend) (line : String) (turn : Turn) :
    Output × Turn :=
  match turn.tool with
  | some tool =>
      perform tool.commandName (tool.advance backend line) { turn with tool := none }
  | none => registry.dispatch backend line turn

end Registry

end PuzzleShell

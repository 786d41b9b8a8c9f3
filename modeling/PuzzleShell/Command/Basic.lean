import PuzzleShell.Config.Basic
import PuzzleShell.CommandLine
import PuzzleShell.Session
import PuzzleShell.Tool
import PuzzleShell.Tree.Change
import PuzzleShell.Tree.Listing

/-!
# Commands

A command is a named action on a turn.  A turn is what one line of input works on: the session, the
tree of its layer and the slot for an interactive tool.  What an action did before it failed
stays done.
-/

namespace PuzzleShell

structure Backend where
  config : Config
  content : ContentOracle
  flags : FlagOracle

/-- What one line of input works on. -/
structure Turn where
  session : Session
  tree : Tree
  tool : Option Tool
  /-- The questions that the content oracle was asked during the turn, in order. -/
  asked : List String

inductive Output where
  | text (text : String)
  /-- Nothing to be seen. -/
  | silent
  /-- The transcript is to be wiped. -/
  | clear
  /-- The deep layer is to be entered through a host. -/
  | connect (host : String)
  /-- The deep layer is to be left. -/
  | disconnect
  /-- A flag was judged. -/
  | flagChecked (accepted : Bool) (id : Option Nat)
  deriving DecidableEq, Repr

inductive Failure where
  | fault (fault : Fault)
  /-- The action broke down in the middle. -/
  | crash
  deriving DecidableEq, Repr

abbrev Action (α : Type) := ExceptT Failure (StateM Turn) α

namespace Action

variable {α : Type}

def fail (fault : Fault) : Action α :=
  throw (.fault fault)

def complain (cause : Complaint) : Action α :=
  fail (.complaint cause)

def ofExcept : Except Fault α → Action α
  | .ok value => pure value
  | .error fault => fail fault

def inquire (inquiry : Inquiry α) : Action α := do
  modify fun turn => { turn with asked := turn.asked ++ inquiry.asked }
  ofExcept inquiry.outcome

def change (change : Tree → Tree.Change α) : Action α := do
  let turn ← get
  let (outcome, tree) := change turn.tree
  set { turn with tree := tree }
  ofExcept outcome

def changeSession (change : Session → Session) : Action Unit :=
  modify fun turn => { turn with session := change turn.session }

def install (tool : Tool) : Action Unit :=
  modify fun turn => { turn with tool := some tool }

def resolve (word : String) : Action String := do
  return Path.resolve word (← get).session.cwd

def user : Action String := do
  return (← get).session.user

end Action

structure Command where
  name : String
  aliases : List String
  description : String
  usage : String
  category : String
  run : Backend → List String → Action Output

/-- A check of the form of the command line: the command's own usage is shown if it fails. -/
def Action.misuse {α : Type} (usage : String) : Action α :=
  Action.complain (.usage usage)

end PuzzleShell

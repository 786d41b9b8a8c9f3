import PuzzleShell.Command.Options

/-!
# Changing files

Each command works through its operands in order and stops at the first that fails.
-/

namespace PuzzleShell.Command

def forEachPath (work : String → Action Unit) : List String → Action Unit
  | [] => pure ()
  | word :: rest => do
      work (← Action.resolve word)
      forEachPath work rest

def mkdir : Command where
  name := "mkdir"
  aliases := []
  description := "Create directories"
  usage := "mkdir <path>..."
  category := "filesystem"
  run _ words :=
    if words.isEmpty then Action.complain .missingOperand
    else do
      let user ← Action.user
      forEachPath (fun path => Action.change (·.mkdir path user)) words
      return .silent

def touch : Command where
  name := "touch"
  aliases := []
  description := "Create empty files"
  usage := "touch <file>..."
  category := "filesystem"
  run _ words :=
    if words.isEmpty then Action.complain .missingFileOperand
    else do
      let user ← Action.user
      forEachPath (fun path => Action.change (·.touch path user)) words
      return .silent

/-- Remove what a path leads to.  With `force` it need not lead anywhere. -/
def removeOne (recursive force : Bool) (user path : String) : Action Unit := do
  let turn ← get
  let (outcome, tree) := turn.tree.remove path user recursive
  set { turn with tree := tree }
  match outcome with
  | .ok () => return ()
  | .error (.notFound missing) => if force then return () else Action.fail (.notFound missing)
  | .error (.isADirectory path) => Action.complain (.removesDirectory path)
  | .error fault => Action.fail fault

def rm : Command where
  name := "rm"
  aliases := []
  description := "Remove files or directories"
  usage := "rm [-r] [-f] <path>..."
  category := "filesystem"
  run _ words := do
    let (letters, operands) ← Options.read ['r', 'R', 'f'] words
    let recursive := letters.contains 'r' || letters.contains 'R'
    let force := letters.contains 'f'
    if operands.isEmpty && !force then Action.complain .missingOperand
    else do
      let user ← Action.user
      forEachPath (removeOne recursive force user) operands
      return .silent

def mv : Command where
  name := "mv"
  aliases := []
  description := "Move or rename a file or directory"
  usage := "mv <source> <dest>"
  category := "filesystem"
  run _ words :=
    match words with
    | [source, target] => do
        let source ← Action.resolve source
        let target ← Action.resolve target
        let user ← Action.user
        let _ ← Action.change (·.rename source target user)
        return .silent
    | _ => Action.misuse "mv <source> <dest>"

def cp : Command where
  name := "cp"
  aliases := []
  description := "Copy a file, or a directory with -r"
  usage := "cp [-r] <source> <dest>"
  category := "filesystem"
  run _ words := do
    let (letters, operands) ← Options.read ['r', 'R'] words
    match operands with
    | [source, target] => do
        let source ← Action.resolve source
        let target ← Action.resolve target
        let user ← Action.user
        let _ ← Action.change (·.copy source target user (!letters.isEmpty))
        return .silent
    | _ => Action.misuse "cp [-r] <source> <dest>"

def chmod : Command where
  name := "chmod"
  aliases := []
  description := "Change permissions (+x, -x, or 3-digit octal)"
  usage := "chmod <+x|-x|NNN> <path>..."
  category := "filesystem"
  run _ words :=
    match words with
    | [] => Action.complain .missingOperand
    | [spec] => Action.complain (.missingOperandAfter spec)
    | spec :: operands => do
        let user ← Action.user
        forEachPath (fun path => do
          let _ ← Action.change (·.chmod path spec user)
          return ()) operands
        return .silent

end PuzzleShell.Command

import PuzzleShell.Command.Options
import PuzzleShell.Text.Lines
import PuzzleShell.Text.Pad

/-!
# Moving around

Listing and entering directories, reading files, and the commands about the session itself.
-/

namespace PuzzleShell.Command

def longRow (row : Row) : String :=
  let size := match row.size with
    | some size => toString size
    | none => "?"
  (if row.isDirectory then "d" else "-") ++ row.access.mode.toString ++ " " ++
    Text.padRight 8 row.access.owner ++ " " ++ Text.padRight 8 row.access.group ++ " " ++
    Text.padLeft 6 size ++ " " ++ row.name

def shortRow (row : Row) : String :=
  if row.isDirectory then row.name ++ "/" else row.name

def listing (all long : Bool) (rows : List Row) : Output :=
  let visible := rows.filter fun row => all || row.name.toList.head? ≠ some '.'
  if visible.isEmpty then .silent
  else if long then .text ("\n".intercalate (visible.map longRow))
  else .text ("  ".intercalate (visible.map shortRow))

/-- List a directory.  Of several directories the last counts. -/
def ls : Command where
  name := "ls"
  aliases := ["dir"]
  description := "List directory contents"
  usage := "ls [-a] [-l] [path]"
  category := "filesystem"
  run _ words := do
    let (letters, operands) ← Options.read ['a', 'l'] words
    let path ← Action.resolve (operands.getLast?.getD ".")
    let turn ← get
    let rows ← Action.ofExcept (turn.tree.list path turn.session.user)
    return listing (letters.contains 'a') (letters.contains 'l') rows

def homeOf (config : Config) (session : Session) : String :=
  if session.isDeep then config.shell.deepPath
  else
    match config.account? session.user with
    | some account => account.home
    | none => Path.home

def cd : Command where
  name := "cd"
  aliases := []
  description := "Change working directory"
  usage := "cd [path]"
  category := "filesystem"
  run backend words := do
    let turn ← get
    let target := match words with
      | word :: _ => Path.resolve word turn.session.cwd
      | [] => homeOf backend.config turn.session
    Action.ofExcept (turn.tree.enter target turn.session.user)
    Action.changeSession fun session => { session with cwd := target }
    return .silent

def pwd : Command where
  name := "pwd"
  aliases := []
  description := "Print working directory"
  usage := "pwd"
  category := "filesystem"
  run _ _ := do
    return .text (← get).session.cwd

def readAll (backend : Backend) : List String → Action (List String)
  | [] => pure []
  | word :: rest => do
      let path ← Action.resolve word
      let turn ← get
      let text ← Action.inquire (turn.tree.read path turn.session.user backend.content)
      let others ← readAll backend rest
      return text :: others

def cat : Command where
  name := "cat"
  aliases := []
  description := "Display file contents"
  usage := "cat <file>..."
  category := "filesystem"
  run backend words :=
    if words.isEmpty then Action.misuse "cat <file>..."
    else do
      let texts ← readAll backend words
      return .text (Text.unlines texts)

def isRedirect (word : String) : Bool :=
  word = ">" || word = ">>"

/-- Print words, or write them into the file after the first redirection. -/
def echo : Command where
  name := "echo"
  aliases := []
  description := "Print text, optionally into a file"
  usage := "echo [text...] [> file | >> file]"
  category := "general"
  run backend words := do
    let text := " ".intercalate (words.takeWhile fun word => !isRedirect word)
    match words.dropWhile fun word => !isRedirect word with
    | [] => return .text text
    | [_] => Action.complain .missingRedirectTarget
    | mark :: target :: _ =>
        let path ← Action.resolve target
        let turn ← get
        let user := turn.session.user
        if mark = ">>" ∧ turn.tree.has path = true then
          let old ← Action.inquire (turn.tree.read path user backend.content)
          Action.change (·.write path (.inline (old ++ "\n" ++ text)) user)
        else
          Action.change (·.write path (.inline text) user)
        return .silent

def clear : Command where
  name := "clear"
  aliases := ["cls"]
  description := "Clear the terminal"
  usage := "clear"
  category := "general"
  run _ _ := return .clear

def whoami : Command where
  name := "whoami"
  aliases := []
  description := "Print the current user"
  usage := "whoami"
  category := "system"
  run _ _ := do
    return .text (← Action.user)

/-- The number of a user: zero for the privileged one, from 1000 in the order of the accounts. -/
def userNumber (config : Config) (user : String) : Nat :=
  if user = rootUser then 0
  else
    match config.accounts.findIdx? (·.user = user) with
    | some index => 1000 + index
    | none => 65534

def id : Command where
  name := "id"
  aliases := []
  description := "Print user and group ids"
  usage := "id"
  category := "system"
  run backend _ := do
    let user ← Action.user
    let who := toString (userNumber backend.config user) ++ "(" ++ user ++ ")"
    return .text ("uid=" ++ who ++ " gid=" ++ who ++ " groups=" ++ who)

/-- Leave the deep layer; the standard layer has no way out. -/
def exit : Command where
  name := "exit"
  aliases := ["logout"]
  description := "Leave the current session"
  usage := "exit"
  category := "system"
  run _ _ := do
    if (← get).session.isDeep then return .disconnect else return .text "logout"

end PuzzleShell.Command

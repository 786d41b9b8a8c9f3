import PuzzleShell.Command.Options

/-!
# Connections

One service listens on this machine, and one host beyond it leads to the deep layer.
-/

namespace PuzzleShell.Command

def echoHosts : List String := ["localhost", "127.0.0.1"]

def echoPort : String := "31337"

def nc : Command where
  name := "nc"
  aliases := []
  description := "Open a TCP connection"
  usage := "nc <host> <port>"
  category := "network"
  run _ words :=
    match words with
    | [host, port] =>
        if echoHosts.contains host ∧ port = echoPort then do
          Action.install .payload
          return .text "echo-service v0.9 (debug build) ready.\nSend one line:"
        else Action.complain (.portRefused host port)
    | _ => Action.misuse "nc <host> <port>"

/-- The user and the host of a connection's target; without a user it is the acting one. -/
def splitTarget (actingUser target : String) : String × String :=
  match target.toList.dropWhile (· ≠ '@') with
  | [] => (actingUser, target)
  | _ :: host => (String.ofList (target.toList.takeWhile (· ≠ '@')), String.ofList host)

def occursIn (part : List Char) : List Char → Bool
  | [] => part.isEmpty
  | c :: rest => part.isPrefixOf (c :: rest) || occursIn part rest

/--
Whether a content opens the gate.  Only protected content does, whatever the text of a copy says.
-/
def opensGate (backend : Backend) : Content → Inquiry Bool
  | .secure id => do
      let text ← .ask backend.content id
      return occursIn backend.config.layer.keyMarker.toList text.toList
  | _ => pure false

/-- Connect to a host, with a key file or else with a password that is never right. -/
def ssh : Command where
  name := "ssh"
  aliases := []
  description := "Connect to a remote host"
  usage := "ssh [-i <identity>] [user@]host"
  category := "network"
  run backend words := do
    let some (operands, identity) := Options.withValue "-i" words
      | Action.complain (.optionNeedsArgument 'i')
    let some target := operands.getLast? | Action.misuse "ssh [-i <identity>] [user@]host"
    let actingUser ← Action.user
    let (user, host) := splitTarget actingUser target
    if host ≠ backend.config.layer.host then Action.complain (.hostRefused host)
    else
      match identity with
      | none => do
          Action.install (.sshPassword (user ++ "@" ++ host))
          return .silent
      | some identity => do
          let path ← Action.resolve identity
          let content ← Action.ofExcept ((← get).tree.content path actingUser)
          if ← Action.inquire (opensGate backend content) then return .connect host
          else Action.complain (.keyRefused (user ++ "@" ++ host))

end PuzzleShell.Command

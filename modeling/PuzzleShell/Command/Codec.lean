import PuzzleShell.Command.Options
import PuzzleShell.Content.Archive

/-!
# Packing and encoding

Protected content keeps its origin: its base64 form is stored as such, and decoding that gives the
protected content back.  What is made from plain text is plain text.
-/

namespace PuzzleShell.Command

/-- The text that a base64 text spells; blanks in it do not count. -/
def decodeText (text : String) : Except Fault String :=
  match Text.Base64.decodeBytes? (Text.withoutBlanks text).toList with
  | none => .error (.complaint .invalidEncoding)
  | some bytes =>
      match String.fromUTF8? ⟨bytes.toArray⟩ with
      | none => .error (.complaint .decodedNoText)
      | some decoded => .ok decoded

def encodeContent (oracle : ContentOracle) : Content → Inquiry Content
  | .secure id => pure (.encoded id)
  | content => do
      let text ← content.render oracle
      return .inline (Text.Base64.encode text)

def decodeContent (oracle : ContentOracle) : Content → Inquiry Content
  | .encoded id => pure (.secure id)
  | content => do
      let text ← content.render oracle
      let decoded ← .ofExcept (decodeText text)
      return .inline decoded

/-- Encode or decode the file of the first word, to be printed or into the file of the second. -/
def recode (backend : Backend) (decode : Bool) (input : String) (output : Option String) :
    Action Output := do
  let path ← Action.resolve input
  let turn ← get
  let content ← Action.ofExcept (turn.tree.content path turn.session.user)
  let result ← Action.inquire
    ((if decode then decodeContent else encodeContent) backend.content content)
  match output with
  | none =>
      let text ← Action.inquire (result.render backend.content)
      return .text text
  | some output =>
      let target ← Action.resolve output
      Action.change (·.write target result turn.session.user)
      return .silent

def base64 : Command where
  name := "base64"
  aliases := []
  description := "Encode or decode (-d) a file, optionally into another file"
  usage := "base64 [-d] <file> [output]"
  category := "tools"
  run backend words :=
    let decode := words.head? = some "-d" || words.head? = some "--decode"
    match if decode then words.tail else words with
    | [input] => recode backend decode input none
    | [input, output] => recode backend decode input (some output)
    | _ => Action.misuse "base64 [-d] <file> [output]"

def extract (directory user : String) : List (String × Content) → Tree → Except Fault Tree
  | [], tree => .ok tree
  | (name, content) :: rest, tree =>
      match tree.write (Path.join directory name) content user with
      | (.ok (), written) => extract directory user rest written
      | (.error fault, _) => .error fault

def archiveEntries? : Content → Option (List (String × Content))
  | .archive entries => some entries
  | .inline text => Archive.parse? text
  | .secure _ | .encoded _ => none

/-- Unpack an archive.  Either all of its entries are written or none. -/
def unzip : Command where
  name := "unzip"
  aliases := []
  description := "Extract an archive"
  usage := "unzip <archive> [-d <dir>]"
  category := "tools"
  run _ words := do
    let some (operands, directory) := Options.withValue "-d" words
      | Action.complain .optionNeedsDirectory
    let some archive := operands.getLast? | Action.misuse "unzip <archive> [-d <dir>]"
    let path ← Action.resolve archive
    let directory ← Action.resolve (directory.getD ".")
    let turn ← get
    let user := turn.session.user
    let content ← Action.ofExcept (turn.tree.content path user)
    let some entries := archiveEntries? content | Action.complain (.notArchive path)
    let tree ← Action.ofExcept (extract directory user entries turn.tree)
    set { turn with tree := tree }
    let lines := entries.map fun entry => "  inflating: " ++ Path.join directory entry.1
    return .text (Text.unlines (("Archive:  " ++ path) :: lines))

end PuzzleShell.Command

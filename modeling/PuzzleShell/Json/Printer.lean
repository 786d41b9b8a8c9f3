import PuzzleShell.Document

/-!
# Writing JSON

The compact form has no blanks.  The only escapes are those that JSON demands: the quote, the
backslash and the control characters, which take the one-letter escape where there is one.
-/

namespace PuzzleShell.Json

def hexDigit (value : Nat) : Char :=
  "0123456789abcdef".toList.getD value '0'

def escape (c : Char) : List Char :=
  match c with
  | '"' => ['\\', '"']
  | '\\' => ['\\', '\\']
  | '\n' => ['\\', 'n']
  | '\r' => ['\\', 'r']
  | '\t' => ['\\', 't']
  | c =>
      if c.toNat = 8 then ['\\', 'b']
      else if c.toNat = 12 then ['\\', 'f']
      else if c.toNat < 0x20 then
        ['\\', 'u', '0', '0', hexDigit (c.toNat / 16), hexDigit (c.toNat % 16)]
      else [c]

def quote (text : String) : String :=
  "\"" ++ String.ofList (text.toList.flatMap escape) ++ "\""

mutual

/-- The compact form of a document.  What has no value is written as `null`. -/
def compact : Document → String
  | .null | .unreadable => "null"
  | .boolean value => if value then "true" else "false"
  | .integer value => toString value
  | .decimal spelling => spelling
  | .text value => quote value
  | .list items => "[" ++ ",".intercalate (compactItems items) ++ "]"
  | .record fields => "\x7b" ++ ",".intercalate (compactFields fields) ++ "\x7d"

def compactItems : List Document → List String
  | [] => []
  | item :: rest => compact item :: compactItems rest

def compactFields : List (String × Document) → List String
  | [] => []
  | (name, value) :: rest => (quote name ++ ":" ++ compact value) :: compactFields rest

end

/-- A table of texts over several lines, each entry indented by two blanks. -/
def prettyTexts (entries : List (String × String)) : String :=
  if entries.isEmpty then "\x7b\x7d"
  else
    "\x7b\n" ++
      ",\n".intercalate (entries.map fun entry => "  " ++ quote entry.1 ++ ": " ++ quote entry.2) ++
      "\n\x7d"

end PuzzleShell.Json

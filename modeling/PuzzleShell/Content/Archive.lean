import PuzzleShell.Content.Basic
import PuzzleShell.Path
import PuzzleShell.Text.Blank
import PuzzleShell.Text.Lines

/-!
# Archives as text

An archive begins with its magic line.  Each entry is a header line `--- name` followed by the
lines of the entry.  Unpacking a text always gives plain entries.
-/

namespace PuzzleShell.Archive

def render (oracle : ContentOracle) (entries : List (String × Content)) : Inquiry String :=
  (Content.archive entries).render oracle

/-- The name in a header line, not yet checked. -/
def headerName? (line : String) : Option String :=
  if headerMark.toList.isPrefixOf line.toList then
    some (Text.trim (String.ofList (line.toList.drop headerMark.length)))
  else none

/--
The entries that the lines after the magic line spell: their names and their lines.  Lines in
front of the first header belong to no entry and are returned apart.
-/
def gather? : List String → Option (List String × List (String × List String))
  | [] => some ([], [])
  | line :: rest => do
      let (body, entries) ← gather? rest
      match headerName? line with
      | some name => if Path.isName name then some ([], (name, body) :: entries) else none
      | none => some (line :: body, entries)

def parse? (text : String) : Option (List (String × Content)) :=
  match Text.lines text with
  | [] => none
  | first :: rest =>
      if Text.trim first = magic then
        match gather? rest with
        | some ([], entries) =>
            some (entries.map fun entry => (entry.1, .inline (Text.unlines entry.2)))
        | _ => none
      else none

example : (parse? "PK-ARCHIVE\n--- a\nx\n\n--- b").map (·.map (·.1)) = some ["a", "b"] := by
  cbv

end PuzzleShell.Archive

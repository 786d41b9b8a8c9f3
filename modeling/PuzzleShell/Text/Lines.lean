/-!
# Lines of a text

A line ends at a line feed, or at a carriage return directly followed by one.  A line feed at the
very end closes the last line and opens no empty one.
-/

namespace PuzzleShell.Text

def withoutReturn (line : List Char) : List Char :=
  if line.getLast? = some '\r' then line.dropLast else line

/--
The lines among the pieces between line feeds.  Every piece but the last was closed by a line
feed, so only there does a carriage return belong to the end of the line.
-/
def closedLines : List (List Char) → List (List Char)
  | [] => []
  | [last] => if last = [] then [] else [last]
  | line :: next :: rest => withoutReturn line :: closedLines (next :: rest)

def lines (text : String) : List String :=
  (closedLines (text.toList.splitOn '\n')).map String.ofList

example : lines "" = [] := by decide
example : lines "\n" = [""] := by decide
example : lines "a\r\n\nb\r" = ["a", "", "b\r"] := by decide

def unlines (texts : List String) : String :=
  "\n".intercalate texts

end PuzzleShell.Text

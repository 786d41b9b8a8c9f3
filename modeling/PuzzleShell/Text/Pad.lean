/-!
# Columns of a listing

A cell is filled with spaces up to its width, counted in characters; a longer cell is kept whole.
-/

namespace PuzzleShell.Text

def padRight (width : Nat) (text : String) : String :=
  text ++ String.ofList (List.replicate (width - text.length) ' ')

def padLeft (width : Nat) (text : String) : String :=
  String.ofList (List.replicate (width - text.length) ' ') ++ text

end PuzzleShell.Text

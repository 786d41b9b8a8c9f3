import PuzzleShell.Fault
import PuzzleShell.Text.Blank

/-!
# Command lines

A line is split into words at blanks.  Single quotes keep everything between them; between double
quotes a backslash protects a double quote or a backslash; outside of quotes a backslash protects
whatever character follows.  A pair of quotes with nothing between them is an empty word.
-/

namespace PuzzleShell.CommandLine

inductive Quotes where
  | none
  | single
  | double
  deriving DecidableEq, Repr

/-- Put the word under way, its last character first, in front of the words after it. -/
def close (word : List Char) (quoted : Bool) (words : List String) : List String :=
  if word = [] ∧ quoted = false then words else String.ofList word.reverse :: words

/--
The words of the rest of a line.  The word under way comes with its last character first, and
`quoted` says whether quotes were opened in it.
-/
def wordsFrom : Quotes → List Char → Bool → List Char → Except Complaint (List String)
  | .single, _, _, [] => .error .unterminatedSingleQuote
  | .single, word, quoted, c :: rest =>
      if c = '\'' then wordsFrom .none word quoted rest
      else wordsFrom .single (c :: word) quoted rest
  | .double, _, _, [] => .error .unterminatedDoubleQuote
  | .double, word, quoted, '"' :: rest => wordsFrom .none word quoted rest
  | .double, word, quoted, '\\' :: '"' :: rest => wordsFrom .double ('"' :: word) quoted rest
  | .double, word, quoted, '\\' :: '\\' :: rest => wordsFrom .double ('\\' :: word) quoted rest
  | .double, word, quoted, c :: rest => wordsFrom .double (c :: word) quoted rest
  | .none, word, quoted, [] => .ok (close word quoted [])
  | .none, word, _, '\'' :: rest => wordsFrom .single word true rest
  | .none, word, _, '"' :: rest => wordsFrom .double word true rest
  | .none, word, quoted, ['\\'] => .ok (close word quoted [])
  | .none, word, quoted, '\\' :: c :: rest => wordsFrom .none (c :: word) quoted rest
  | .none, word, quoted, c :: rest =>
      if Text.isBlank c then (wordsFrom .none [] false rest).map (close word quoted)
      else wordsFrom .none (c :: word) quoted rest

def tokenize (line : String) : Except Complaint (List String) :=
  wordsFrom .none [] false line.toList

example : tokenize "a 'b c' \"d\\\"e\" f\\ g ''" = .ok ["a", "b c", "d\"e", "f g", ""] := by rfl

end PuzzleShell.CommandLine

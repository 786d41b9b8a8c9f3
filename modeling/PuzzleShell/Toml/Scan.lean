/-!
# Scanning configuration text

A scanner takes characters from the front of a text and returns what they spell together with the
rest, or nothing if the text does not begin as it should.
-/

namespace PuzzleShell.Toml

/-- What takes a part off the front of a text. -/
abbrev Scanner (α : Type) := List Char → Option (α × List Char)

def isSpace (c : Char) : Bool :=
  c = ' ' || c = '\t'

def skipSpace (cs : List Char) : List Char :=
  cs.dropWhile isSpace

def expect? (c : Char) : List Char → Option (List Char)
  | [] => none
  | first :: rest => if first = c then some rest else none

def expectAll? (expected : List Char) (cs : List Char) : Option (List Char) :=
  if expected.isPrefixOf cs then some (cs.drop expected.length) else none

/-- The rest after a line end, which is a line feed that a carriage return may precede. -/
def lineEnd? : List Char → Option (List Char)
  | '\n' :: rest => some rest
  | '\r' :: '\n' :: rest => some rest
  | _ => none

/-- The characters of a comment: no control characters but the tab. -/
def isCommentChar (c : Char) : Bool :=
  c = '\t' || (0x20 ≤ c.toNat && c.toNat ≠ 0x7F)

def skipComment : List Char → List Char
  | '#' :: rest => rest.dropWhile isCommentChar
  | cs => cs

def closeLine? (cs : List Char) : Option (List Char) :=
  match skipComment (skipSpace cs) with
  | [] => some []
  | rest => lineEnd? rest

/--
The rest after blanks, comments and line ends in any order.  Every step takes at least one
character, so `fuel` of the text's length is enough.
-/
def skipLines (fuel : Nat) (cs : List Char) : List Char :=
  match fuel with
  | 0 => cs
  | fuel + 1 =>
      match skipComment (skipSpace cs) with
      | '\n' :: rest => skipLines fuel rest
      | '\r' :: '\n' :: rest => skipLines fuel rest
      | rest => rest

/-- The rest after everything that may stand between the parts of a list. -/
def skipFiller (cs : List Char) : List Char :=
  skipLines cs.length cs

/-- One or more decimal digits, with single underscores allowed between digits. -/
def groupedDigits? (isDigit : Char → Bool) : Scanner (List Char)
  | [] => none
  | c :: rest => if isDigit c then some (more [c] rest) else none
where
  /-- Further digits; the ones so far come last first. -/
  more (found : List Char) : List Char → List Char × List Char
    | '_' :: d :: rest =>
        if isDigit d then more (d :: found) rest else (found.reverse, '_' :: d :: rest)
    | d :: rest => if isDigit d then more (d :: found) rest else (found.reverse, d :: rest)
    | [] => (found.reverse, [])

def fixedNat? (count : Nat) (cs : List Char) : Option (Nat × List Char) :=
  let digits := cs.take count
  if digits.length = count ∧ digits.all Char.isDigit then
    some (digits.foldl (fun value c => value * 10 + (c.toNat - '0'.toNat)) 0, cs.drop count)
  else none

end PuzzleShell.Toml

import PuzzleShell.Toml.Scan

/-!
# Strings of a configuration text

A string stands in double quotes, where a backslash escapes, or in single quotes, where nothing
does.  In three quotes of either kind it may run over several lines.
-/

namespace PuzzleShell.Toml

structure Quoting where
  quote : Char
  escapes : Bool
  multiline : Bool
  deriving DecidableEq, Repr

def hexDigit? (c : Char) : Option Nat :=
  if '0' ≤ c ∧ c ≤ '9' then some (c.toNat - '0'.toNat)
  else if 'a' ≤ c ∧ c ≤ 'f' then some (c.toNat - 'a'.toNat + 10)
  else if 'A' ≤ c ∧ c ≤ 'F' then some (c.toNat - 'A'.toNat + 10)
  else none

def codePoint? (count : Nat) (cs : List Char) : Option (Char × List Char) := do
  let values ← (cs.take count).mapM hexDigit?
  let code := values.foldl (fun code value => code * 16 + value) 0
  if values.length = count ∧ code.isValidChar then some (Char.ofNat code, cs.drop count) else none

def escape? : Scanner Char
  | 'b' :: rest => some (Char.ofNat 8, rest)
  | 't' :: rest => some ('\t', rest)
  | 'n' :: rest => some ('\n', rest)
  | 'f' :: rest => some (Char.ofNat 12, rest)
  | 'r' :: rest => some ('\r', rest)
  | '"' :: rest => some ('"', rest)
  | '\\' :: rest => some ('\\', rest)
  | 'u' :: rest => codePoint? 4 rest
  | 'U' :: rest => codePoint? 8 rest
  | _ => none

def skipBlankLines : Nat → List Char → List Char
  | 0, cs => cs
  | fuel + 1, cs =>
      match lineEnd? (skipSpace cs) with
      | some rest => skipBlankLines fuel rest
      | none => skipSpace cs

/-- The rest after a backslash that ends its line, together with the blanks of the lines after. -/
def joinedLine? (cs : List Char) : Option (List Char) :=
  (lineEnd? (skipSpace cs)).map fun rest => skipBlankLines rest.length rest

def isTextChar (c : Char) : Bool :=
  c = '\t' || (0x20 ≤ c.toNat && c.toNat ≠ 0x7F)

/--
The quotes that belong to a string over several lines when it is closed here, and the rest after
it.  Up to two quotes may stand directly in front of the closing three.
-/
def closing? (quote : Char) (cs : List Char) : Option (List Char × List Char) :=
  let run := cs.takeWhile (· = quote)
  if run.length < 3 then none
  else
    let inside := min (run.length - 3) 2
    some (run.take inside, cs.drop (inside + 3))

/--
The rest of a string up to its closing quotes.  The characters found so far come last first, and
`fuel` of the text's length is enough.
-/
def body? (style : Quoting) : Nat → List Char → List Char → Option (List Char × List Char)
  | 0, _, _ => none
  | _, _, [] => none
  | fuel + 1, found, c :: rest =>
      if c = style.quote then
        if style.multiline then
          match closing? style.quote (c :: rest) with
          | some (inside, others) => some (found.reverse ++ inside, others)
          | none => body? style fuel (c :: found) rest
        else some (found.reverse, rest)
      else if c = '\\' ∧ style.escapes then
        match if style.multiline then joinedLine? rest else none with
        | some others => body? style fuel found others
        | none =>
            match escape? rest with
            | some (plain, others) => body? style fuel (plain :: found) others
            | none => none
      else if isTextChar c then body? style fuel (c :: found) rest
      else if style.multiline then
        match lineEnd? (c :: rest) with
        | some others => body? style fuel ('\n' :: found) others
        | none => none
      else none

def lineText? : Scanner String
  | [] => none
  | c :: rest =>
      if c = '"' ∨ c = '\'' then
        (body? ⟨c, c = '"', false⟩ (rest.length + 1) [] rest).map fun found =>
          (String.ofList found.1, found.2)
      else none

/-- A string over several lines.  A line end right after the opening quotes does not count. -/
def blockText? (cs : List Char) : Option (String × List Char) :=
  match cs with
  | [] => none
  | c :: _ =>
      if c = '"' ∨ c = '\'' then do
        let rest ← expectAll? [c, c, c] cs
        let start := (lineEnd? rest).getD rest
        let found ← body? ⟨c, c = '"', true⟩ (start.length + 1) [] start
        some (String.ofList found.1, found.2)
      else none

def text? (cs : List Char) : Option (String × List Char) :=
  match cs with
  | '"' :: '"' :: '"' :: _ => blockText? cs
  | '\'' :: '\'' :: '\'' :: _ => blockText? cs
  | _ => lineText? cs

end PuzzleShell.Toml

import PuzzleShell.Document

/-!
# JSON tokens

A token is read from the run of characters that it may consist of: a string from its quotes, a
number or a literal name from the longest run of the characters that such a token has.  Two such
tokens without a separator between them are no document in any case, so the longest run loses
nothing.
-/

namespace PuzzleShell.Json

inductive Token where
  | openList
  | closeList
  | openRecord
  | closeRecord
  | comma
  | colon
  /-- A string, with nothing if its escapes spell no text. -/
  | text (value : Option String)
  /-- A number or a literal name. -/
  | scalar (value : Document)

def isSpace (c : Char) : Bool :=
  c = ' ' || c = '\t' || c = '\n' || c = '\r'

def punctuation? : Char → Option Token
  | '[' => some .openList
  | ']' => some .closeList
  | '{' => some .openRecord
  | '}' => some .closeRecord
  | ',' => some .comma
  | ':' => some .colon
  | _ => none

def escaped? : Char → Option Char
  | '"' => some '"'
  | '\\' => some '\\'
  | '/' => some '/'
  | 'b' => some (Char.ofNat 8)
  | 'f' => some (Char.ofNat 12)
  | 'n' => some '\n'
  | 'r' => some '\r'
  | 't' => some '\t'
  | _ => none

def hexValue? (c : Char) : Option Nat :=
  if '0' ≤ c ∧ c ≤ '9' then some (c.toNat - '0'.toNat)
  else if 'a' ≤ c ∧ c ≤ 'f' then some (c.toNat - 'a'.toNat + 10)
  else if 'A' ≤ c ∧ c ≤ 'F' then some (c.toNat - 'A'.toNat + 10)
  else none

def isHighSurrogate (unit : Nat) : Bool :=
  0xD800 ≤ unit && unit < 0xDC00

def isLowSurrogate (unit : Nat) : Bool :=
  0xDC00 ≤ unit && unit < 0xE000

/--
The characters that a sequence of code units spells: a unit outside the surrogates stands for
itself, a high and a low surrogate together for one character, and half a pair for none.
-/
def charsOfUnits? : List Nat → Option (List Char)
  | [] => some []
  | [unit] =>
      if isHighSurrogate unit || isLowSurrogate unit then none else some [Char.ofNat unit]
  | unit :: next :: rest =>
      if isHighSurrogate unit then
        if isLowSurrogate next then
          (charsOfUnits? rest).map
            (Char.ofNat (0x10000 + (unit - 0xD800) * 0x400 + (next - 0xDC00)) :: ·)
        else none
      else if isLowSurrogate unit then none
      else (charsOfUnits? (next :: rest)).map (Char.ofNat unit :: ·)

def textToken (units : List Nat) : Token :=
  .text ((charsOfUnits? units).map String.ofList)

def isNumberChar (c : Char) : Bool :=
  c.isDigit || c = '+' || c = '-' || c = '.' || c = 'e' || c = 'E'

def natOfDigits (digits : List Char) : Nat :=
  digits.foldl (fun value c => value * 10 + (c.toNat - '0'.toNat)) 0

def digits? (cs : List Char) : Option (List Char × List Char) :=
  if (cs.takeWhile Char.isDigit).isEmpty then none
  else some (cs.takeWhile Char.isDigit, cs.dropWhile Char.isDigit)

def isExponent : List Char → Bool
  | [] => true
  | e :: rest =>
      (e = 'e' || e = 'E') &&
        match rest with
        | sign :: others =>
            if sign = '+' ∨ sign = '-' then (digits? others).any (·.2.isEmpty)
            else (digits? rest).any (·.2.isEmpty)
        | [] => false

def isNumberTail : List Char → Bool
  | '.' :: rest => (digits? rest).any fun parts => isExponent parts.2
  | rest => isExponent rest

def unsigned? (negative : Bool) (cs : List Char) : Option Document := do
  let (whole, rest) ← digits? cs
  if whole.length ≠ 1 ∧ whole.head? = some '0' then none
  else if rest.isEmpty then
    if negative ∧ whole = ['0'] then some (.decimal "-0")
    else if negative then some (.integer (-(natOfDigits whole : Int)))
    else some (.integer (natOfDigits whole))
  else if isNumberTail rest then
    some (.decimal (String.ofList (if negative then '-' :: cs else cs)))
  else none

/-- The number that the characters spell.  Minus zero is no integer. -/
def number? : List Char → Option Document
  | '-' :: cs => unsigned? true cs
  | cs => unsigned? false cs

def literal? (name : List Char) : Option Document :=
  match String.ofList name with
  | "null" => some .null
  | "true" => some (.boolean true)
  | "false" => some (.boolean false)
  | _ => none

end PuzzleShell.Json

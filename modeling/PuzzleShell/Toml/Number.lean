import PuzzleShell.Document
import PuzzleShell.Toml.Text

/-!
# Numbers and dates of a configuration text

Integers fit into 64 bits with a sign.  No setting is a fraction or a date, so of a fraction only
its spelling is kept, and of a date a record with its normal spelling.
-/

namespace PuzzleShell.Toml

/-- Whether an integer fits into 64 bits with a sign. -/
def fits (value : Int) : Bool :=
  -(1 <<< 63 : Int) ≤ value && value < (1 <<< 63 : Int)

def natOfDigits? (base : Nat) (digits : List Char) : Option Nat :=
  digits.foldlM (fun value c => do
    let digit ← hexDigit? c
    if digit < base then some (value * base + digit) else none) 0

def sign : List Char → Bool × List Char
  | '-' :: rest => (true, rest)
  | '+' :: rest => (false, rest)
  | cs => (false, cs)

/-- The digits of a decimal number without a sign; no zero may lead other digits. -/
def wholeDigits? (cs : List Char) : Option (List Char × List Char) :=
  match cs with
  | '0' :: rest => some (['0'], rest)
  | _ => groupedDigits? Char.isDigit cs

/-- An integer in base two, eight or sixteen; it has no sign. -/
def basedInteger? (base : Nat) (cs : List Char) : Option (Document × List Char) := do
  let (digits, rest) ← groupedDigits? (fun c => (hexDigit? c).any (· < base)) cs
  let value ← natOfDigits? base digits
  if fits value then some (.integer value, rest) else none

def integer? (cs : List Char) : Option (Document × List Char) :=
  match cs with
  | '0' :: 'x' :: rest => basedInteger? 16 rest
  | '0' :: 'o' :: rest => basedInteger? 8 rest
  | '0' :: 'b' :: rest => basedInteger? 2 rest
  | _ => do
      let (negative, unsigned) := sign cs
      let (digits, rest) ← wholeDigits? unsigned
      let value ← natOfDigits? 10 digits
      let signed : Int := if negative then -(value : Int) else value
      if fits signed then some (.integer signed, rest) else none

def exponent? (cs : List Char) : Option (Int × List Char) :=
  match cs with
  | e :: rest =>
      if e = 'e' ∨ e = 'E' then do
        let (negative, unsigned) := sign rest
        let (digits, others) ← groupedDigits? Char.isDigit unsigned
        let value ← natOfDigits? 10 digits
        some (if negative then -(value : Int) else value, others)
      else none
  | [] => none

def fraction? : Scanner (List Char)
  | '.' :: rest => groupedDigits? Char.isDigit rest
  | _ => none

/--
Whether `digits` with the point `places` from their end, times ten to the `exponent`, is rounded
to a finite binary fraction of 64 bits: whether it lies below the greatest one plus half of the
last place.
-/
def isFinite (digits : Nat) (places : Nat) (exponent : Int) : Bool :=
  let limit := (1 <<< 1024) - (1 <<< 970)
  let shift := exponent - places
  if digits = 0 then true
  else if 310 < shift then false
  else if 0 ≤ shift then digits * Nat.pow 10 shift.toNat < limit
  else
    let size := (toString digits).length
    if (size : Int) + shift < 300 then true
    else digits < limit * Nat.pow 10 (-shift).toNat

def decimal? (cs : List Char) : Option (Document × List Char) := do
  let (negative, unsigned) := sign cs
  let (whole, rest) ← wholeDigits? unsigned
  let (places, power, others) ←
    match fraction? rest with
    | some (digits, after) =>
        match exponent? after with
        | some (power, last) => some (digits, power, last)
        | none => some (digits, 0, after)
    | none => (exponent? rest).map fun found => ([], found.1, found.2)
  let digits ← natOfDigits? 10 (whole ++ places)
  if negative || isFinite digits places.length power then
    some (.decimal (String.ofList (cs.take (cs.length - others.length))), others)
  else none

def special? (cs : List Char) : Option (Document × List Char) :=
  let (_, unsigned) := sign cs
  match expectAll? "inf".toList unsigned with
  | some rest => some (.decimal "inf", rest)
  | none => (expectAll? "nan".toList unsigned).map (.decimal "nan", ·)

def daysOf (year month : Nat) : Nat :=
  if month = 2 then
    if year % 4 = 0 ∧ (year % 100 ≠ 0 ∨ year % 400 = 0) then 29 else 28
  else if month = 4 ∨ month = 6 ∨ month = 9 ∨ month = 11 then 30
  else 31

def digitsOf (width value : Nat) : String :=
  let digits := toString value
  String.ofList (List.replicate (width - digits.length) '0') ++ digits

def day? (cs : List Char) : Option (String × List Char) := do
  let (year, rest) ← fixedNat? 4 cs
  let (month, rest) ← (expect? '-' rest) >>= fixedNat? 2
  let (day, rest) ← (expect? '-' rest) >>= fixedNat? 2
  if 1 ≤ month ∧ month ≤ 12 ∧ 1 ≤ day ∧ day ≤ daysOf year month then
    some (digitsOf 4 year ++ "-" ++ digitsOf 2 month ++ "-" ++ digitsOf 2 day, rest)
  else none

/-- The fraction of a second in its normal spelling: at most nine places, none of them idle. -/
def secondFraction? : Scanner String
  | '.' :: rest =>
      let digits := rest.takeWhile Char.isDigit
      if digits.isEmpty then none
      else
        let kept := ((digits.take 9).reverse.dropWhile (· = '0')).reverse
        some (if kept.isEmpty then "" else "." ++ String.ofList kept, rest.drop digits.length)
  | _ => none

def time? (cs : List Char) : Option (String × List Char) := do
  let (hour, rest) ← fixedNat? 2 cs
  let (minute, rest) ← (expect? ':' rest) >>= fixedNat? 2
  let (second, rest) ← (expect? ':' rest) >>= fixedNat? 2
  let (fraction, rest) ←
    match rest with
    | '.' :: _ => secondFraction? rest
    | _ => some ("", rest)
  if hour ≤ 23 ∧ minute ≤ 59 ∧ second ≤ 60 then
    some (digitsOf 2 hour ++ ":" ++ digitsOf 2 minute ++ ":" ++ digitsOf 2 second ++ fraction,
      rest)
  else none

def offset? : Scanner String
  | [] => none
  | c :: rest =>
      if c = 'Z' ∨ c = 'z' then some ("Z", rest)
      else if c = '+' ∨ c = '-' then do
        let (hour, rest) ← fixedNat? 2 rest
        let (minute, rest) ← (expect? ':' rest) >>= fixedNat? 2
        if hour ≤ 23 ∧ minute ≤ 59 then
          let mark := if c = '-' ∧ hour + minute ≠ 0 then "-" else "+"
          some (mark ++ digitsOf 2 hour ++ ":" ++ digitsOf 2 minute, rest)
        else none
      else none

/-- The document that stands for a date: a record with its spelling under a reserved name. -/
def dateDocument (spelling : String) : Document :=
  .record [("$__toml_private_datetime", .text spelling)]

def date? (cs : List Char) : Option (Document × List Char) :=
  match day? cs with
  | none => (time? cs).map fun found => (dateDocument found.1, found.2)
  | some (day, rest) =>
      let timed : Option (String × List Char) :=
        match rest with
        | [] => none
        | c :: others => if c = 'T' ∨ c = 't' ∨ c = ' ' then time? others else none
      match timed with
      | none => some (dateDocument day, rest)
      | some (time, others) =>
          match offset? others with
          | some (offset, last) => some (dateDocument (day ++ "T" ++ time ++ offset), last)
          | none => some (dateDocument (day ++ "T" ++ time), others)

def number? (cs : List Char) : Option (Document × List Char) :=
  (date? cs).orElse fun _ =>
    (decimal? cs).orElse fun _ =>
      (special? cs).orElse fun _ => integer? cs

end PuzzleShell.Toml

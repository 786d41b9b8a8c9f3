/-!
# Structured documents

The values that a configuration file or a stored record is made of, whatever format it was read
from, and the questions that a decoder asks of them.
-/

namespace PuzzleShell

inductive Document where
  | null
  | boolean (value : Bool)
  | integer (value : Int)
  /-- A number written with a fraction or an exponent; it is never taken for an integer. -/
  | decimal (spelling : String)
  | text (value : String)
  /--
  A string or record that is well formed but spells no text, because an escape leaves half of a
  surrogate pair.  It may stand where nothing looks at it.
  -/
  | unreadable
  | list (items : List Document)
  /-- Fields in the order in which they were written. -/
  | record (fields : List (String × Document))
  deriving Inhabited

namespace Document

def asBoolean? : Document → Option Bool
  | .boolean value => some value
  | _ => none

def asNat? (bound : Nat) : Document → Option Nat
  | .integer value => if 0 ≤ value ∧ value < bound then some value.toNat else none
  | _ => none

def asText? : Document → Option String
  | .text value => some value
  | _ => none

def asList? {α : Type} (read : Document → Option α) : Document → Option (List α)
  | .list items => items.mapM read
  | _ => none

def asTable? {α : Type} (read : Document → Option α) : Document → Option (List (String × α))
  | .record fields => fields.mapM fun field => (read field.2).map (field.1, ·)
  | _ => none

/-- What is done with items of a list beyond the fields that it is read as. -/
inductive Surplus where
  | refused
  | ignored
  deriving DecidableEq, Repr

/--
The fields of a structure whose fields have the given names.  A record gives them by name; a list
gives them by position, and a short one leaves the last ones out.
-/
def asFields? (names : List String) (surplus : Surplus) :
    Document → Option (List (String × Document))
  | .record fields => some fields
  | .list items =>
      if surplus = .refused ∧ names.length < items.length then none
      else some (names.zip items)
  | _ => none

def lastValue? (name : String) (fields : List (String × Document)) : Option Document :=
  fields.reverse.lookup name

def optionalField? {α : Type} (fields : List (String × Document)) (name : String) (default : α)
    (read : Document → Option α) : Option α :=
  match lastValue? name fields with
  | none => some default
  | some value => read value

def requiredField? {α : Type} (fields : List (String × Document)) (name : String)
    (read : Document → Option α) : Option α :=
  lastValue? name fields >>= read

end Document

end PuzzleShell

import PuzzleShell.Command.Basic

/-!
# Options

Words that begin with a dash are sets of one-letter options.  A lone dash is an ordinary word.
-/

namespace PuzzleShell.Options

def letters? (word : String) : Option (List Char) :=
  match word.toList with
  | '-' :: c :: rest => some (c :: rest)
  | _ => none

/-- The letters of all options and the other words; a letter that is not allowed is refused. -/
def split (allowed : List Char) : List String → Except Complaint (List Char × List String)
  | [] => .ok ([], [])
  | word :: rest =>
      match letters? word with
      | some letters =>
          match letters.find? fun c => !allowed.contains c with
          | some c => .error (.invalidOption c)
          | none => (split allowed rest).map fun found => (letters ++ found.1, found.2)
      | none => (split allowed rest).map fun found => (found.1, word :: found.2)

def read (allowed : List Char) (words : List String) : Action (List Char × List String) :=
  match split allowed words with
  | .ok found => pure found
  | .error cause => Action.complain cause

/-- The words apart from an option and its value, and the last value that was given for it. -/
def withValue (option : String) : List String → Option (List String × Option String)
  | [] => some ([], none)
  | word :: rest =>
      if word = option then
        match rest with
        | [] => none
        | value :: others =>
            (withValue option others).map fun found => (found.1, found.2.or (some value))
      else (withValue option rest).map fun found => (word :: found.1, found.2)

end PuzzleShell.Options

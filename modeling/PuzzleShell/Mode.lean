import PuzzleShell.Fault

/-!
# Permission strings

Nine characters, three for each of owner, group and others: read, write, execute.  The execute
place of a triad may carry a marker: `s` for owner and group, `t` (sticky) for others, in upper
case when there is no execute permission beside it.
-/

namespace PuzzleShell

inductive Capability where
  | read
  | write
  | execute
  deriving DecidableEq, Repr

inductive Party where
  | owner
  | group
  | others
  deriving DecidableEq, Repr

structure Triad where
  read : Bool
  write : Bool
  execute : Bool
  marked : Bool
  deriving DecidableEq, Repr

namespace Triad

def empty : Triad := ⟨false, false, false, false⟩

def readOnly : Triad := ⟨true, false, false, false⟩

def readWrite : Triad := ⟨true, true, false, false⟩

def readExecute : Triad := ⟨true, false, true, false⟩

def readWriteExecute : Triad := ⟨true, true, true, false⟩

def grants (triad : Triad) : Capability → Bool
  | .read => triad.read
  | .write => triad.write
  | .execute => triad.execute

/-- The three characters of a triad whose marker is written with the given letters. -/
def toChars (marker absentMarker : Char) (triad : Triad) : List Char :=
  [if triad.read then 'r' else '-', if triad.write then 'w' else '-',
   if triad.marked then (if triad.execute then marker else absentMarker)
   else if triad.execute then 'x' else '-']

/-- The permission that a letter or a dash in its place stands for. -/
def flag? (letter c : Char) : Option Bool :=
  if c = letter then some true else if c = '-' then some false else none

def ofChars? (marker absentMarker r w x : Char) : Option Triad := do
  let read ← flag? 'r' r
  let write ← flag? 'w' w
  if x = marker then some ⟨read, write, true, true⟩
  else if x = absentMarker then some ⟨read, write, false, true⟩
  else some ⟨read, write, ← flag? 'x' x, false⟩

def ofOctal? (c : Char) : Option Triad :=
  if '0' ≤ c ∧ c ≤ '7' then
    let value := c.toNat - '0'.toNat
    some ⟨value / 4 = 1, value / 2 % 2 = 1, value % 2 = 1, false⟩
  else none

end Triad

structure Mode where
  owner : Triad
  group : Triad
  others : Triad
  deriving DecidableEq, Repr

namespace Mode

def triad (mode : Mode) : Party → Triad
  | .owner => mode.owner
  | .group => mode.group
  | .others => mode.others

def allows (mode : Mode) (party : Party) (capability : Capability) : Bool :=
  (mode.triad party).grants capability

/-- Whether entries are protected from everyone but their owners. -/
def isSticky (mode : Mode) : Bool :=
  mode.others.marked

def toString (mode : Mode) : String :=
  String.ofList (mode.owner.toChars 's' 'S' ++ mode.group.toChars 's' 'S' ++
    mode.others.toChars 't' 'T')

def ofChars? : List Char → Option Mode
  | [a, b, c, d, e, f, g, h, i] => do
      let owner ← Triad.ofChars? 's' 'S' a b c
      let group ← Triad.ofChars? 's' 'S' d e f
      let others ← Triad.ofChars? 't' 'T' g h i
      some ⟨owner, group, others⟩
  | _ => none

def parse (text : String) : Except Fault Mode :=
  match ofChars? text.toList with
  | some mode => .ok mode
  | none => .error (.complaint (.invalidMode text))

/-- The mode of three octal digits; it has no markers. -/
def ofOctal? (digits : String) : Option Mode :=
  match digits.toList with
  | [a, b, c] => do
      some ⟨← Triad.ofOctal? a, ← Triad.ofOctal? b, ← Triad.ofOctal? c⟩
  | _ => none

/-- Grant or take execute for all parties; the markers stay. -/
def withExecute (mode : Mode) (on : Bool) : Mode :=
  ⟨{ mode.owner with execute := on }, { mode.group with execute := on },
   { mode.others with execute := on }⟩

/-- The mode after a change: execute on, execute off, or all of it in octal digits. -/
def change? (mode : Mode) (spec : String) : Option Mode :=
  if spec = "+x" ∨ spec = "a+x" then some (mode.withExecute true)
  else if spec = "-x" ∨ spec = "a-x" then some (mode.withExecute false)
  else ofOctal? spec

def newDirectory : Mode := ⟨.readWriteExecute, .readExecute, .readExecute⟩

def newFile : Mode := ⟨.readWrite, .readOnly, .readOnly⟩

example : newDirectory.toString = "rwxr-xr-x" := by decide
example : newFile.toString = "rw-r--r--" := by decide
example : (newFile.withExecute true).toString = "rwxr-xr-x" := by decide

end Mode

end PuzzleShell

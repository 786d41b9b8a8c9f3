import PuzzleShell.Fault

/-!
# Flags

The flag oracle judges the flags that players hand in.  The shell hands over the exact text and
trusts the verdict.
-/

namespace PuzzleShell

structure Verdict where
  accepted : Bool
  /-- The challenge that the flag belongs to. -/
  id : Option Nat
  deriving DecidableEq, Repr

abbrev FlagOracle := String → Except Fault Verdict

structure FlagEntry where
  flag : String
  id : Nat
  deriving DecidableEq, Repr

namespace Verdict

def rejected : Verdict := ⟨false, none⟩

/-- The judgement by a table, where the first entry of a flag counts. -/
def ofTable (table : List FlagEntry) (candidate : String) : Verdict :=
  match table.find? (·.flag = candidate) with
  | some entry => ⟨true, some entry.id⟩
  | none => rejected

end Verdict

end PuzzleShell

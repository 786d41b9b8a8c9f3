import PuzzleShell.Fault

/-!
# Asking the content oracle

The texts of protected files are not stored in the tree.  They are asked for by identifier, one
question per reference and reading.  An inquiry is a computation that asks such questions; it
keeps the identifiers in the order in which they were asked, also when one of the answers ends it.
-/

namespace PuzzleShell

abbrev ContentOracle := String → Except Fault String

/-- The outcome of a computation together with the questions that it asked. -/
structure Inquiry (α : Type) where
  asked : List String
  outcome : Except Fault α

namespace Inquiry

variable {α β : Type}

def done (value : α) : Inquiry α := ⟨[], .ok value⟩

def ask (oracle : ContentOracle) (id : String) : Inquiry String := ⟨[id], oracle id⟩

def andThen (inquiry : Inquiry α) (next : α → Inquiry β) : Inquiry β :=
  match inquiry.outcome with
  | .ok value => ⟨inquiry.asked ++ (next value).asked, (next value).outcome⟩
  | .error fault => ⟨inquiry.asked, .error fault⟩

instance : Monad Inquiry where
  pure := done
  bind := andThen

def ofExcept (outcome : Except Fault α) : Inquiry α := ⟨[], outcome⟩

/-- An inquiry that cannot be answered is not gone on with. -/
theorem andThen_error {inquiry : Inquiry α} {fault : Fault}
    (failed : inquiry.outcome = .error fault) (next : α → Inquiry β) :
    inquiry.andThen next = ⟨inquiry.asked, .error fault⟩ := by
  simp [andThen, failed]

/-- The questions of what comes next follow those that were asked before. -/
theorem andThen_ok {inquiry : Inquiry α} {value : α} (answered : inquiry.outcome = .ok value)
    (next : α → Inquiry β) :
    inquiry.andThen next = ⟨inquiry.asked ++ (next value).asked, (next value).outcome⟩ := by
  simp [andThen, answered]

end Inquiry

end PuzzleShell

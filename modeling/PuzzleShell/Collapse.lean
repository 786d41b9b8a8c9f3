import PuzzleShell.Config.Basic

/-!
# The collapse of the terminal

Too many unknown commands in a row set off a cycle: the terminal fails, shatters, recovers and is
normal again.  Each phase but the normal one is left when its time is over.
-/

namespace PuzzleShell

inductive Phase where
  | normal
  | systemFailure
  | shattering
  | recovering
  deriving DecidableEq, Repr

namespace Phase

def acceptsInput : Phase → Bool
  | .normal | .systemFailure => true
  | .shattering | .recovering => false

def remaining : Phase → Nat
  | .normal => 0
  | .systemFailure => 3
  | .shattering => 2
  | .recovering => 1

end Phase

inductive PhaseEvent where
  /-- There were too many unknown commands in a row. -/
  | threshold
  /-- The time of the phase is over. -/
  | holdElapsed
  /-- The game starts over. -/
  | reset
  deriving DecidableEq, Repr

/-- The phase that an event leads to; there is none where the event is ignored. -/
def Phase.next? : Phase → PhaseEvent → Option Phase
  | .normal, .threshold => some .systemFailure
  | .systemFailure, .holdElapsed => some .shattering
  | .shattering, .holdElapsed => some .recovering
  | .recovering, .holdElapsed => some .normal
  | .systemFailure, .reset | .shattering, .reset | .recovering, .reset => some .normal
  | _, _ => none

def Phase.holdMs? (settings : CollapseSettings) : Phase → Option Nat
  | .normal => none
  | .systemFailure => some settings.failureMs
  | .shattering => some settings.shatterMs
  | .recovering => some settings.recoverMs

/-- The phase and the timer that ends it. -/
structure Collapse where
  phase : Phase
  timer : Option Nat
  deriving DecidableEq, Repr

namespace Collapse

def start : Collapse := ⟨.normal, none⟩

def triggers (settings : CollapseSettings) (collapse : Collapse) (streak : Nat) : Bool :=
  collapse.phase = .normal && settings.threshold ≤ streak

def fire (collapse : Collapse) (event : PhaseEvent) : Option Phase × Collapse :=
  match collapse.phase.next? event with
  | some phase => (some phase, { collapse with phase := phase })
  | none => (none, collapse)

def takeTimer (collapse : Collapse) : Option Nat × Collapse :=
  (collapse.timer, { collapse with timer := none })

end Collapse

end PuzzleShell

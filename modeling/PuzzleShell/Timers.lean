/-!
# Timers

Events that fall due on a clock of milliseconds.  Nothing here waits: the owner moves the clock and
takes due events out one at a time, so each event sees what the one before it left.  Events fall
due in the order of their times, and at the same time in the order in which they were scheduled.
-/

namespace PuzzleShell

/-- The greatest time; sums of times stop there. -/
def latest : Nat := (1 <<< 64) - 1

def later (time delay : Nat) : Nat :=
  min (time + delay) latest

structure Pending (α : Type) where
  id : Nat
  due : Nat
  event : α
  deriving DecidableEq, Repr

/-- Pending events in the order in which they were scheduled, and the clock. -/
structure Timers (α : Type) where
  now : Nat
  nextId : Nat
  pending : List (Pending α)
  deriving DecidableEq, Repr

namespace Timers

variable {α : Type}

def start : Timers α := ⟨0, 0, []⟩

/-- Let an event fall due after a delay.  The answer is the number of its timer. -/
def schedule (timers : Timers α) (delay : Nat) (event : α) : Nat × Timers α :=
  (timers.nextId,
    { timers with
      nextId := timers.nextId + 1
      pending := timers.pending ++ [⟨timers.nextId, later timers.now delay, event⟩] })

def isPending (timers : Timers α) (id : Nat) : Bool :=
  timers.pending.any (·.id = id)

/-- Take a timer back.  The answer says whether it was still pending. -/
def cancel (timers : Timers α) (id : Nat) : Bool × Timers α :=
  (timers.isPending id,
    { timers with pending := timers.pending.filter fun entry => !(entry.id = id : Bool) })

def clear (timers : Timers α) : Timers α :=
  { timers with pending := [] }

def Pending.before (entry other : Pending α) : Bool :=
  entry.due < other.due || (entry.due = other.due && entry.id < other.id)

def earlier (entry : Pending α) : Option (Pending α) → Pending α
  | none => entry
  | some other => if Pending.before other entry then other else entry

/-- The pending event that falls due first, if it does so at or before a time. -/
def first? (limit : Nat) : List (Pending α) → Option (Pending α)
  | [] => none
  | entry :: rest =>
      if entry.due ≤ limit then some (earlier entry (first? limit rest)) else first? limit rest

/-- Take the event out that falls due first, at or before a time, and move the clock there. -/
def pop? (timers : Timers α) (limit : Nat) : Option (Pending α × Timers α) :=
  match first? limit timers.pending with
  | none => none
  | some entry =>
      some (entry,
        { timers with
          now := max timers.now entry.due
          pending := timers.pending.eraseP fun other => other.id = entry.id })

/-- Move the clock on to a time; it never goes back. -/
def advanceTo (timers : Timers α) (time : Nat) : Timers α :=
  { timers with now := max timers.now time }

theorem earlier_mem {entry : Pending α} {other : Option (Pending α)} {entries : List (Pending α)}
    (other_mem : ∀ found, other = some found → found ∈ entries) :
    earlier entry other ∈ entry :: entries := by
  cases other with
  | none => simp [earlier]
  | some found =>
      simp only [earlier]
      split
      · exact List.mem_cons_of_mem _ (other_mem found rfl)
      · exact List.mem_cons_self

/-- The first event is one of the pending ones. -/
theorem first?_mem {limit : Nat} {entries : List (Pending α)} {entry : Pending α}
    (found : first? limit entries = some entry) : entry ∈ entries := by
  induction entries generalizing entry with
  | nil => simp [first?] at found
  | cons head rest ih =>
      simp only [first?] at found
      split at found
      · rw [← Option.some.inj found]
        exact earlier_mem fun other h => ih h
      · exact List.mem_cons_of_mem _ (ih found)

/-- Taking an event out leaves one pending event less. -/
theorem length_pop? {timers after : Timers α} {limit : Nat} {entry : Pending α}
    (popped : timers.pop? limit = some (entry, after)) :
    after.pending.length + 1 = timers.pending.length := by
  unfold pop? at popped
  split at popped
  · simp at popped
  next found =>
      have parts := Prod.mk.inj (Option.some.inj popped)
      have member := first?_mem found
      have erased : after.pending.length = timers.pending.length - 1 := by
        rw [← parts.2]
        exact List.length_eraseP_of_mem member (by simp)
      have positive := List.length_pos_of_mem member
      omega

theorem length_schedule (timers : Timers α) (delay : Nat) (event : α) :
    (timers.schedule delay event).2.pending.length = timers.pending.length + 1 := by
  simp [schedule]

theorem length_cancel_le (timers : Timers α) (id : Nat) :
    (timers.cancel id).2.pending.length ≤ timers.pending.length :=
  List.length_filter_le _ _

end Timers

end PuzzleShell

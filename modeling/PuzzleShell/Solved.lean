/-!
# Solved challenges

The identifiers of the solved challenges, in increasing order and without repetition.
-/

namespace PuzzleShell

/-- A set of challenge identifiers, listed in increasing order. -/
abbrev Solved := List Nat

namespace Solved

def insert (id : Nat) : Solved → Solved
  | [] => [id]
  | first :: rest =>
      if id < first then id :: first :: rest
      else if id = first then first :: rest
      else first :: insert id rest

def ofList (ids : List Nat) : Solved :=
  ids.foldl (fun solved id => insert id solved) []

theorem mem_insert {id other : Nat} {solved : Solved} :
    other ∈ insert id solved ↔ other = id ∨ other ∈ solved := by
  induction solved with
  | nil => simp [insert]
  | cons first rest ih =>
      by_cases below : id < first
      · simp [insert, below]
      by_cases same : id = first
      · simp [insert, same]
      · simp only [insert, below, same, if_false, List.mem_cons, ih]
        exact or_left_comm

end Solved

end PuzzleShell

import PuzzleShell.Fault

/-!
# Stores

A store keeps texts under keys from one run of the program to the next.  Reading and writing may
fail.
-/

namespace PuzzleShell

class Store (σ : Type) where
  get : σ → String → Except Fault (Option String)
  set : σ → String → String → Except Fault Unit × σ

/-- Texts under distinct keys, in increasing order of the keys. -/
abbrev Dictionary := List (String × String)

namespace Dictionary

def get? (key : String) (dictionary : Dictionary) : Option String :=
  List.lookup key dictionary

def put (key value : String) : Dictionary → Dictionary
  | [] => [(key, value)]
  | (known, old) :: rest =>
      if key = known then (key, value) :: rest
      else if key < known then (key, value) :: (known, old) :: rest
      else (known, old) :: put key value rest

/-- The dictionary of the listed entries; of two entries with one key the later counts. -/
def ofList (entries : List (String × String)) : Dictionary :=
  entries.foldl (fun dictionary entry => put entry.1 entry.2 dictionary) []

theorem get?_cons (key known value : String) (rest : Dictionary) :
    get? key ((known, value) :: rest) = if key = known then some value else get? key rest := by
  by_cases same : key = known
  · simp [get?, same]
  · simp [get?, List.lookup_cons, beq_eq_false_iff_ne.2 same, same]

/-- Putting a text changes what is found under its key alone. -/
theorem get?_put (key other value : String) (dictionary : Dictionary) :
    get? other (put key value dictionary) =
      if other = key then some value else get? other dictionary := by
  induction dictionary with
  | nil => simp [put, get?_cons]
  | cons entry rest ih =>
      obtain ⟨known, old⟩ := entry
      simp only [put]
      split
      · grind [get?_cons]
      · split <;> grind [get?_cons]

end Dictionary

structure MemoryStore where
  entries : Dictionary
  deriving DecidableEq, Repr

instance : Store MemoryStore where
  get store key := .ok (Dictionary.get? key store.entries)
  set store key value := (.ok (), ⟨Dictionary.put key value store.entries⟩)

end PuzzleShell

/-!
# Rosters

Values under names, in the order in which the names were first entered.  Entering a value under a
known name keeps the place of that name; taking a name out keeps the order of the others.  What each
operation does is said by what `get?` finds afterwards and by the `names` that are left.
-/

namespace PuzzleShell

/-- Values under distinct names, in the order of entry. -/
abbrev Roster (α : Type) := List (String × α)

namespace Roster

variable {α : Type}

def get? (name : String) (roster : Roster α) : Option α :=
  List.lookup name roster

def has (name : String) (roster : Roster α) : Bool :=
  (get? name roster).isSome

def put (name : String) (value : α) : Roster α → Roster α
  | [] => [(name, value)]
  | (known, old) :: rest =>
      if known = name then (known, value) :: rest else (known, old) :: put name value rest

def drop (name : String) : Roster α → Roster α
  | [] => []
  | (known, old) :: rest =>
      if known = name then rest else (known, old) :: drop name rest

def update (name : String) (change : α → α) : Roster α → Roster α
  | [] => []
  | (known, old) :: rest =>
      if known = name then (known, change old) :: rest
      else (known, old) :: update name change rest

def names (roster : Roster α) : List String :=
  roster.map (·.1)

@[simp]
theorem get?_nil (name : String) : get? name ([] : Roster α) = none :=
  rfl

theorem get?_cons (name known : String) (value : α) (rest : Roster α) :
    get? name ((known, value) :: rest) = if name = known then some value else get? name rest := by
  by_cases same : name = known
  · simp [get?, same]
  · simp [get?, List.lookup_cons, beq_eq_false_iff_ne.2 same, same]

/-- Entering a value changes what is found under its name alone. -/
theorem get?_put (name other : String) (value : α) (roster : Roster α) :
    get? other (put name value roster) =
      if other = name then some value else get? other roster := by
  induction roster with
  | nil => simp [put, get?_cons]
  | cons entry rest ih =>
      obtain ⟨known, old⟩ := entry
      simp only [put]
      split <;> grind [get?_cons]

/-- Changing a value changes what is found under its name alone. -/
theorem get?_update (name other : String) (change : α → α) (roster : Roster α) :
    get? other (update name change roster) =
      if other = name then (get? other roster).map change else get? other roster := by
  induction roster with
  | nil => simp [update]
  | cons entry rest ih =>
      obtain ⟨known, old⟩ := entry
      simp only [update]
      split <;> grind [get?_cons]

/-- Taking a name out leaves what is found under the others. -/
theorem get?_drop_of_ne {name other : String} (different : other ≠ name) (roster : Roster α) :
    get? other (drop name roster) = get? other roster := by
  induction roster with
  | nil => rfl
  | cons entry rest ih =>
      obtain ⟨known, old⟩ := entry
      simp only [drop]
      split <;> grind [get?_cons]

theorem has_iff_mem_names {name : String} {roster : Roster α} :
    has name roster = true ↔ name ∈ names roster := by
  induction roster with
  | nil => simp [has, get?, names]
  | cons entry rest ih =>
      obtain ⟨known, old⟩ := entry
      simp only [has, names, get?_cons] at *
      grind

/-- A new name comes last. -/
theorem names_put (name : String) (value : α) (roster : Roster α) :
    names (put name value roster) =
      if name ∈ names roster then names roster else names roster ++ [name] := by
  induction roster with
  | nil => simp [put, names]
  | cons entry rest ih =>
      obtain ⟨known, old⟩ := entry
      simp only [put]
      split <;> grind [names]

theorem names_update (name : String) (change : α → α) (roster : Roster α) :
    names (update name change roster) = names roster := by
  induction roster with
  | nil => rfl
  | cons entry rest ih =>
      obtain ⟨known, old⟩ := entry
      simp only [update]
      split <;> simp_all [names]

theorem names_drop (name : String) (roster : Roster α) :
    names (drop name roster) = (names roster).erase name := by
  induction roster with
  | nil => rfl
  | cons entry rest ih =>
      obtain ⟨known, old⟩ := entry
      simp only [drop]
      split <;> grind [names]

end Roster

end PuzzleShell

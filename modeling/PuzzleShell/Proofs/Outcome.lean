import PuzzleShell.Content.Inquiry
import PuzzleShell.Tree.Change

/-!
# Computations that may end in a fault

What a computation that ended well went through, and computations over two different states that
end alike.
-/

namespace PuzzleShell

/-- A computation ends well if each of its two halves does. -/
theorem bind_eq_ok_iff {ε α β : Type} {first : Except ε α} {next : α → Except ε β} {result : β} :
    (first >>= next) = .ok result ↔ ∃ value, first = .ok value ∧ next value = .ok result := by
  cases first with
  | error fault => simp [bind, Except.bind]
  | ok value => simp [bind, Except.bind]

/-- An inquiry is answered if each of its two halves is. -/
theorem Inquiry.outcome_bind_eq_ok_iff {α β : Type} {inquiry : Inquiry α} {next : α → Inquiry β}
    {result : β} :
    (inquiry >>= next).outcome = .ok result ↔
      ∃ value, inquiry.outcome = .ok value ∧ (next value).outcome = .ok result := by
  change (inquiry.andThen next).outcome = .ok result ↔ _
  cases answer : inquiry.outcome with
  | error fault => simp [andThen_error answer]
  | ok value => simp [andThen_ok answer]

@[simp]
theorem require_eq_ok_iff {access : Access} {user path : String} {capability : Capability}
    {done : Unit} :
    access.require user capability path = .ok done ↔ access.permits user capability = true := by
  unfold Access.require
  split <;> simp_all

/-- A plan that is carried out keeps what the tree had, if it had it and the plan gives it. -/
theorem Tree.carryOut_keeps {α : Type} (Holds : Tree → Prop) {tree : Tree}
    {plan : Except Fault (α × Tree)} (before : Holds tree)
    (planned : ∀ value after, plan = .ok (value, after) → Holds after) :
    Holds (tree.carryOut plan).2 := by
  cases plan with
  | error fault => exact before
  | ok result => exact planned result.1 result.2 rfl

/-- An operation that answered without a fault left what it had planned. -/
theorem Tree.carryOut_eq_ok_iff {α : Type} {tree after : Tree} {plan : Except Fault (α × Tree)}
    {value : α} : tree.carryOut plan = (.ok value, after) ↔ plan = .ok (value, after) := by
  cases plan with
  | error fault => simp [carryOut]
  | ok result => simp [carryOut, Prod.ext_iff]

/-- An operation that ended in a fault left the tree alone. -/
theorem Tree.carryOut_eq_error_iff {α : Type} {tree after : Tree}
    {plan : Except Fault (α × Tree)} {fault : Fault} :
    tree.carryOut plan = (.error fault, after) ↔ plan = .error fault ∧ after = tree := by
  cases plan with
  | error cause => simp [carryOut, eq_comm]
  | ok result => simp [carryOut]

/-- Two computations end alike: in the same fault, or in values that belong together. -/
inductive EndAlike {α β : Type} (Related : α → β → Prop) :
    Except Fault α → Except Fault β → Prop where
  | error (fault : Fault) : EndAlike Related (.error fault) (.error fault)
  | ok {value : α} {other : β} (related : Related value other) :
      EndAlike Related (.ok value) (.ok other)

namespace EndAlike

variable {α β γ δ : Type} {Related : α → β → Prop} {After : γ → δ → Prop}

/-- Computations that end alike may be gone on with, each from its own value. -/
theorem bind_of {first : Except Fault α} {second : Except Fault β} {next : α → Except Fault γ}
    {other : β → Except Fault δ} (alike : EndAlike Related first second)
    (step : ∀ value found, first = .ok value → second = .ok found → Related value found →
      EndAlike After (next value) (other found)) :
    EndAlike After (first >>= next) (second >>= other) := by
  cases alike with
  | error fault => exact .error fault
  | ok related => exact step _ _ rfl rfl related

theorem bind {first : Except Fault α} {second : Except Fault β} {next : α → Except Fault γ}
    {other : β → Except Fault δ} (alike : EndAlike Related first second)
    (step : ∀ value found, Related value found → EndAlike After (next value) (other found)) :
    EndAlike After (first >>= next) (second >>= other) :=
  alike.bind_of fun value found _ _ => step value found

/-- The same computation may be gone on with by computations that end alike. -/
theorem after {first : Except Fault α} {next : α → Except Fault γ} {other : α → Except Fault δ}
    (step : ∀ value, EndAlike After (next value) (other value)) :
    EndAlike After (first >>= next) (first >>= other) := by
  cases first with
  | error fault => exact .error fault
  | ok value => exact step value

theorem of_eq {first second : Except Fault α} (same : first = second) :
    EndAlike Eq first second := by
  subst same
  cases first with
  | error fault => exact .error fault
  | ok value => exact .ok rfl

/-- Computations whose results look the same end alike. -/
theorem of_map_eq {look : α → β} {first second : Except Fault α}
    (same : first.map look = second.map look) :
    EndAlike (fun value other => look value = look other) first second := by
  cases first with
  | error fault =>
      cases second with
      | error cause => exact Except.error.inj same ▸ .error fault
      | ok other => cases same
  | ok value =>
      cases second with
      | error cause => cases same
      | ok other => exact .ok (Except.ok.inj same)

theorem eq {first second : Except Fault α} (alike : EndAlike Eq first second) :
    first = second := by
  cases alike with
  | error fault => rfl
  | ok same => rw [same]

end EndAlike

end PuzzleShell

import Mathlib.Data.List.Nodup
import PuzzleShell.Timers

/-!
# What is pending

The timers under which an event is pending, and what each operation does to them: it changes them
for one event at a time and leaves all others waiting as they did.
-/

namespace PuzzleShell

theorem later_le_later {time other : Nat} (le : time ≤ other) (delay : Nat) :
    later time delay ≤ later other delay := by
  simp only [later]
  omega

theorem le_later {time : Nat} (le : time ≤ latest) (delay : Nat) : time ≤ later time delay := by
  simp only [later]
  omega

theorem later_le_latest (time delay : Nat) : later time delay ≤ latest :=
  Nat.min_le_right _ _

namespace Timers

variable {α : Type} {timers after : Timers α}

/-- Timers that are told apart by their numbers, all of which are used up. -/
structure WellFormed (timers : Timers α) : Prop where
  distinct : (timers.pending.map (·.id)).Nodup
  numbered : ∀ entry ∈ timers.pending, entry.id < timers.nextId

theorem wellFormed_of_nil (none : timers.pending = []) : timers.WellFormed := by
  constructor
  · rw [none]
    exact List.nodup_nil
  · intro entry member
    rw [none] at member
    cases member

namespace WellFormed

/-- A timer is set for one event only. -/
theorem entry_eq (wellFormed : timers.WellFormed) {entry other : Pending α}
    (here : entry ∈ timers.pending) (there : other ∈ timers.pending) (same : entry.id = other.id) :
    entry = other :=
  List.inj_on_of_nodup_map wellFormed.distinct here there same

theorem schedule (wellFormed : timers.WellFormed) (delay : Nat) (event : α) :
    (timers.schedule delay event).2.WellFormed := by
  constructor
  · simp only [Timers.schedule, List.map_append, List.map_cons, List.map_nil]
    refine List.nodup_append.2 ⟨wellFormed.distinct, List.nodup_singleton _, ?_⟩
    intro id known other fresh same
    obtain ⟨entry, member, rfl⟩ := List.mem_map.1 known
    rw [List.mem_singleton] at fresh
    have below := wellFormed.numbered entry member
    omega
  · intro entry member
    simp only [Timers.schedule, List.mem_append, List.mem_singleton] at member ⊢
    rcases member with before | rfl
    · have below := wellFormed.numbered entry before
      omega
    · exact Nat.lt_succ_self _

theorem cancel (wellFormed : timers.WellFormed) (id : Nat) :
    (timers.cancel id).2.WellFormed := by
  constructor
  · exact wellFormed.distinct.sublist (List.filter_sublist.map _)
  · intro entry member
    exact wellFormed.numbered entry (List.mem_filter.1 member).1

theorem advanceTo (wellFormed : timers.WellFormed) (time : Nat) :
    (timers.advanceTo time).WellFormed :=
  ⟨wellFormed.distinct, wellFormed.numbered⟩

end WellFormed

/-- Among entries with distinct numbers, the first one with a number is the only one. -/
theorem eraseP_eq_filter {entries : List (Pending α)} (distinct : (entries.map (·.id)).Nodup)
    (id : Nat) :
    (entries.eraseP fun entry => entry.id = id) =
      entries.filter fun entry => !(entry.id = id : Bool) := by
  induction entries with
  | nil => rfl
  | cons entry rest ih =>
      rw [List.map_cons, List.nodup_cons] at distinct
      obtain ⟨fresh, distinct⟩ := distinct
      by_cases same : entry.id = id
      · subst same
        have others : ∀ other ∈ rest, (!(other.id = entry.id : Bool)) = true := by
          intro other member
          rw [Bool.not_eq_true', decide_eq_false_iff_not]
          intro known
          exact fresh (List.mem_map.2 ⟨other, member, known⟩)
        rw [List.eraseP_cons_of_pos (by simp), List.filter_cons_of_neg (by simp),
          List.filter_eq_self.2 others]
      · rw [List.eraseP_cons_of_neg (by simpa using same),
          List.filter_cons_of_pos (by simpa using same), ih distinct]

/-- An event that falls due is one of those that were pending, and its timer is taken back. -/
theorem pop?_eq_some (wellFormed : timers.WellFormed) {limit : Nat} {entry : Pending α}
    (popped : timers.pop? limit = some (entry, after)) :
    entry ∈ timers.pending ∧ after.nextId = timers.nextId ∧
      after.pending = (timers.cancel entry.id).2.pending := by
  unfold pop? at popped
  split at popped
  · cases popped
  next found =>
    cases popped
    exact ⟨first?_mem found, rfl, eraseP_eq_filter wellFormed.distinct _⟩

theorem WellFormed.pop? (wellFormed : timers.WellFormed) {limit : Nat} {entry : Pending α}
    (popped : timers.pop? limit = some (entry, after)) : after.WellFormed := by
  obtain ⟨-, numbers, pending⟩ := pop?_eq_some wellFormed popped
  have cancelled := wellFormed.cancel entry.id
  constructor
  · rw [pending]
    exact cancelled.distinct
  · rw [pending, numbers]
    exact cancelled.numbered

section First

variable {entries : List (Pending α)} {entry other : Pending α} {limit bound : Nat}

/-- Of two entries the one that falls due before the other is the earlier one. -/
theorem earlier_of_due_lt (sooner : entry.due < other.due) :
    earlier entry (some other) = entry ∧ earlier other (some entry) = entry := by
  have notBefore : Pending.before other entry = false := by
    simp only [Pending.before, Bool.or_eq_false_iff, Bool.and_eq_false_iff, decide_eq_false_iff_not]
    omega
  have before : Pending.before entry other = true := by simp [Pending.before, sooner]
  constructor
  · rw [earlier, notBefore]
    rfl
  · rw [earlier, before]
    rfl

/-- What falls due first does so in time. -/
theorem due_le_of_first? (found : first? limit entries = some entry) : entry.due ≤ limit := by
  induction entries generalizing entry with
  | nil => cases found
  | cons head rest ih =>
      rw [first?] at found
      split at found
      next inTime =>
        cases found
        cases others : first? limit rest with
        | none => exact inTime
        | some second =>
            rw [earlier]
            split
            · exact ih others
            · exact inTime
      · exact ih found

/-- Nothing falls due first if everything is due later. -/
theorem first?_eq_none_iff :
    first? limit entries = none ↔ ∀ entry ∈ entries, limit < entry.due := by
  induction entries with
  | nil => simp [first?]
  | cons head rest ih =>
      rw [first?, List.forall_mem_cons, ← ih]
      split
      next inTime => simp [Nat.not_lt.2 inTime]
      next late => simp [Nat.not_le.1 late]

def Precedes (entry other : Pending α) : Prop :=
  entry.due < other.due ∨ entry.due = other.due ∧ entry.id < other.id

theorem before_eq_true_iff : Pending.before entry other = true ↔ Precedes entry other := by
  simp only [Pending.before, Precedes, Bool.or_eq_true, Bool.and_eq_true, decide_eq_true_eq]

/-- Neither of two entries falls due before the earlier one. -/
theorem not_precedes_earlier (entry other : Pending α) :
    ¬ Precedes entry (earlier entry (some other)) ∧
      ¬ Precedes other (earlier entry (some other)) := by
  rw [earlier]
  split
  next sooner =>
    rw [before_eq_true_iff] at sooner
    unfold Precedes at *
    omega
  next later =>
    rw [before_eq_true_iff] at later
    unfold Precedes at *
    omega

/-- Nothing falls due before what falls due first. -/
theorem not_precedes_of_first? (found : first? limit entries = some entry)
    (member : other ∈ entries) : ¬ Precedes other entry := by
  induction entries generalizing entry with
  | nil => cases member
  | cons head rest ih =>
      have inTime := due_le_of_first? found
      rw [first?] at found
      split at found
      next headInTime =>
        cases found
        cases others : first? limit rest with
        | none =>
            change ¬ Precedes other head
            rcases List.mem_cons.1 member with rfl | behind
            · unfold Precedes
              omega
            · have late := first?_eq_none_iff.1 others other behind
              unfold Precedes
              omega
        | some second =>
            obtain ⟨first, next⟩ := not_precedes_earlier head second
            rcases List.mem_cons.1 member with rfl | behind
            · exact first
            · have least := ih others behind
              unfold Precedes at *
              omega
      next headLate =>
        rcases List.mem_cons.1 member with rfl | behind
        · unfold Precedes
          omega
        · exact ih found behind

/-- What falls due first up to a time does so up to every later time as well. -/
theorem first?_of_le (le : limit ≤ bound) (found : first? limit entries = some entry) :
    first? bound entries = some entry := by
  induction entries generalizing entry with
  | nil => cases found
  | cons head rest ih =>
      rw [first?] at found ⊢
      split at found
      next inTime =>
        rw [if_pos (Nat.le_trans inTime le), ← found]
        cases others : first? limit rest with
        | some second => rw [ih others]
        | none =>
            -- Whatever else falls due up to the later time does so after the head of the list.
            cases more : first? bound rest with
            | none => rfl
            | some second =>
                have late := first?_eq_none_iff.1 others second (first?_mem more)
                rw [(earlier_of_due_lt (Nat.lt_of_le_of_lt inTime late)).1]
                rfl
      next late =>
        rw [ih found]
        split
        · have sooner : entry.due < head.due := by
            have inTime := due_le_of_first? found
            omega
          rw [(earlier_of_due_lt sooner).2]
        · rfl

end First

/-- Nothing is taken out as long as nothing falls due. -/
theorem pop?_eq_none_iff {limit : Nat} :
    timers.pop? limit = none ↔ ∀ entry ∈ timers.pending, limit < entry.due := by
  rw [← first?_eq_none_iff, pop?]
  cases first? limit timers.pending <;> simp

/-- The clock moves to the time of the event that is taken out, which is in time. -/
theorem now_of_pop? {limit : Nat} {entry : Pending α}
    (popped : timers.pop? limit = some (entry, after)) :
    entry.due ≤ limit ∧ after.now = max timers.now entry.due := by
  unfold pop? at popped
  split at popped
  · cases popped
  next found =>
    cases popped
    exact ⟨due_le_of_first? found, rfl⟩

/-- What is taken out was pending, and nothing else comes to be pending by that. -/
theorem mem_of_pop? {limit : Nat} {entry : Pending α}
    (popped : timers.pop? limit = some (entry, after)) :
    entry ∈ timers.pending ∧ after.pending ⊆ timers.pending := by
  unfold pop? at popped
  split at popped
  · cases popped
  next found =>
    cases popped
    exact ⟨first?_mem found, List.eraseP_subset⟩

/-- Nothing that is pending falls due before the event that is taken out. -/
theorem not_precedes_of_pop? {limit : Nat} {entry other : Pending α}
    (popped : timers.pop? limit = some (entry, after)) (member : other ∈ timers.pending) :
    ¬ Precedes other entry := by
  unfold pop? at popped
  split at popped
  · cases popped
  next found =>
    cases popped
    exact not_precedes_of_first? found member

theorem due_le_of_pop? {limit : Nat} {entry other : Pending α}
    (popped : timers.pop? limit = some (entry, after)) (member : other ∈ timers.pending) :
    entry.due ≤ other.due := by
  have least := not_precedes_of_pop? popped member
  unfold Precedes at least
  omega

/-- The event that is taken out falls due before all that stay pending. -/
theorem precedes_of_pop? (wellFormed : timers.WellFormed) {limit : Nat} {entry other : Pending α}
    (popped : timers.pop? limit = some (entry, after)) (member : other ∈ after.pending) :
    Precedes entry other := by
  rw [(pop?_eq_some wellFormed popped).2.2, cancel, List.mem_filter, Bool.not_eq_true',
    decide_eq_false_iff_not] at member
  have least := not_precedes_of_pop? popped member.1
  have different := member.2
  unfold Precedes at *
  omega

/-- More time does not change which event is taken out next. -/
theorem pop?_of_le {limit bound : Nat} {result : Pending α × Timers α} (le : limit ≤ bound)
    (popped : timers.pop? limit = some result) : timers.pop? bound = some result := by
  unfold pop? at popped ⊢
  split at popped
  · cases popped
  next found =>
    rw [first?_of_le le found]
    exact popped

/-- The clock may be moved on, short of everything that is pending, before an event is taken out. -/
theorem pop?_advanceTo {time : Nat} (nothing : timers.pop? time = none) (limit : Nat) :
    (timers.advanceTo time).pop? limit = timers.pop? limit := by
  rw [pop?, pop?, advanceTo]
  cases found : first? limit timers.pending with
  | none => rfl
  | some entry =>
      have late := pop?_eq_none_iff.1 nothing entry (first?_mem found)
      have moved : max (max timers.now time) entry.due = max timers.now entry.due := by omega
      simp only [moved]

variable [DecidableEq α]

def waiting (timers : Timers α) (event : α) : List Nat :=
  (timers.pending.filter fun entry => entry.event = event).map (·.id)

theorem mem_waiting_iff {event : α} {id : Nat} :
    id ∈ timers.waiting event ↔ ∃ entry ∈ timers.pending, entry.event = event ∧ entry.id = id := by
  simp [waiting, and_assoc]

theorem waiting_eq_nil_iff {event : α} :
    timers.waiting event = [] ↔ ∀ entry ∈ timers.pending, entry.event ≠ event := by
  simp [waiting]

theorem waiting_schedule (timers : Timers α) (delay : Nat) (event other : α) :
    (timers.schedule delay event).2.waiting other =
      timers.waiting other ++ if event = other then [timers.nextId] else [] := by
  by_cases same : event = other <;> simp [waiting, Timers.schedule, same]

theorem waiting_cancel (timers : Timers α) (id : Nat) (event : α) :
    (timers.cancel id).2.waiting event = (timers.waiting event).filter (· ≠ id) := by
  simp only [waiting, Timers.cancel, List.filter_map, List.filter_filter]
  congr 2
  funext entry
  simp [Bool.and_comm]

/-- Afterwards an event is pending under the given timers, and every other one as before. -/
structure Awaits (timers after : Timers α) (event : α) (ids : List Nat) : Prop where
  wellFormed : after.WellFormed
  here : after.waiting event = ids
  others : ∀ other, other ≠ event → after.waiting other = timers.waiting other

namespace Awaits

theorem trans {last : Timers α} {event : α} {ids others : List Nat}
    (first : Awaits timers after event ids) (second : Awaits after last event others) :
    Awaits timers last event others where
  wellFormed := second.wellFormed
  here := second.here
  others other different :=
    (second.others other different).trans (first.others other different)

theorem refl (wellFormed : timers.WellFormed) (event : α) :
    Awaits timers timers event (timers.waiting event) :=
  ⟨wellFormed, rfl, fun _ _ => rfl⟩

theorem schedule (wellFormed : timers.WellFormed) (delay : Nat) (event : α) :
    Awaits timers (timers.schedule delay event).2 event
      (timers.waiting event ++ [timers.nextId]) where
  wellFormed := wellFormed.schedule delay event
  here := by rw [waiting_schedule, if_pos rfl]
  others other different := by
    rw [waiting_schedule, if_neg (Ne.symm different), List.append_nil]

/-- Taking a timer back concerns the event that it was set for alone. -/
theorem cancel (wellFormed : timers.WellFormed) {event : α} {id : Nat}
    (set : id ∈ timers.waiting event) :
    Awaits timers (timers.cancel id).2 event ((timers.waiting event).filter (· ≠ id)) where
  wellFormed := wellFormed.cancel id
  here := waiting_cancel timers id event
  others other different := by
    rw [waiting_cancel, List.filter_eq_self]
    intro known too
    rw [decide_eq_true_eq]
    rintro rfl
    obtain ⟨entry, here, rfl, same⟩ := mem_waiting_iff.1 set
    obtain ⟨again, there, rfl, number⟩ := mem_waiting_iff.1 too
    exact different (by rw [wellFormed.entry_eq there here (number.trans same.symm)])

/-- An event that falls due is no longer pending under the timer that was set for it. -/
theorem pop? (wellFormed : timers.WellFormed) {limit : Nat} {entry : Pending α}
    (popped : timers.pop? limit = some (entry, after)) :
    entry.id ∈ timers.waiting entry.event ∧
      Awaits timers after entry.event ((timers.waiting entry.event).filter (· ≠ entry.id)) := by
  obtain ⟨member, -, pending⟩ := pop?_eq_some wellFormed popped
  have set : entry.id ∈ timers.waiting entry.event := mem_waiting_iff.2 ⟨entry, member, rfl, rfl⟩
  have cancelled := cancel wellFormed set
  have same : ∀ event, after.waiting event = (timers.cancel entry.id).2.waiting event := by
    intro event
    rw [waiting, pending, ← waiting]
  refine ⟨set, wellFormed.pop? popped, ?_, ?_⟩
  · rw [same, cancelled.here]
  · intro other different
    rw [same, cancelled.others other different]

end Awaits

end Timers

end PuzzleShell

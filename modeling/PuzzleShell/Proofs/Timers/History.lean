import PuzzleShell.Proofs.Timers

/-!
# What timers have done

Timers are worked by calls, and every call leaves a mark: a timer was set, it fell due and fired, or
it was taken back.  Whatever is pending has been set and has had no end since, and what fires next
comes after everything that has fired.  So nothing gets lost or fires out of turn, however the calls
follow one another and however the limits go up and down.
-/

namespace PuzzleShell.Timers

variable {α : Type}

/-- A call that works the timers; times and delays are counted in 64 bits. -/
inductive Call (α : Type) where
  | schedule (delay : UInt64) (event : α)
  | cancel (id : Nat)
  | pop (limit : UInt64)
  | advance (time : UInt64)
  | clear

inductive Mark (α : Type) where
  | set (entry : Pending α)
  | fired (entry : Pending α)
  | cancelled (id : Nat)
  | cleared

def call (timers : Timers α) : Call α → Timers α
  | .schedule delay event => (timers.schedule delay.toNat event).2
  | .cancel id => (timers.cancel id).2
  | .pop limit =>
      match timers.pop? limit.toNat with
      | some (_, after) => after
      | none => timers
  | .advance time => timers.advanceTo time.toNat
  | .clear => timers.clear

def marks (timers : Timers α) : Call α → List (Mark α)
  | .schedule delay event =>
      [.set ⟨timers.nextId, min (timers.now + delay.toNat) latest, event⟩]
  | .cancel id => [.cancelled id]
  | .pop limit =>
      match timers.pop? limit.toNat with
      | some (entry, _) => [.fired entry]
      | none => []
  | .advance _ => []
  | .clear => [.cleared]

def run (timers : Timers α) (calls : List (Call α)) : Timers α :=
  calls.foldl call timers

def history (timers : Timers α) : List (Call α) → List (Mark α)
  | [] => []
  | first :: rest => timers.marks first ++ (timers.call first).history rest

def Mark.set? : Mark α → Option (Pending α)
  | .set entry => some entry
  | _ => none

def Mark.fired? : Mark α → Option (Pending α)
  | .fired entry => some entry
  | _ => none

/-- Whether a mark says that an entry, if it was pending, is pending no longer. -/
def Mark.Ends (entry : Pending α) : Mark α → Prop
  | .set _ => False
  | .fired other => other = entry
  | .cancelled id => id = entry.id
  | .cleared => True

/-- Whether an entry was set and nothing has ended its waiting since. -/
def Outstanding (past : List (Mark α)) (entry : Pending α) : Prop :=
  ∃ before after, past = before ++ .set entry :: after ∧ ∀ mark ∈ after, ¬ mark.Ends entry

variable {timers after : Timers α} {past : List (Mark α)} {mark : Mark α} {entry : Pending α}

section Outstanding

/-- A list that ends in an item is split at that item or before it. -/
theorem concat_eq_append_cons {item last : Mark α} {front behind : List (Mark α)}
    (split : past ++ [last] = front ++ item :: behind) :
    past = front ∧ last = item ∧ behind = [] ∨
      ∃ rest, behind = rest ++ [last] ∧ past = front ++ item :: rest := by
  rcases List.eq_nil_or_concat' behind with rfl | ⟨rest, final, rfl⟩
  · obtain ⟨same, ends⟩ := List.append_inj' split rfl
    exact Or.inl ⟨same, List.singleton_inj.1 ends, rfl⟩
  · rw [← List.cons_append, ← List.append_assoc] at split
    obtain ⟨same, ends⟩ := List.append_inj' split rfl
    rw [List.singleton_inj.1 ends]
    exact Or.inr ⟨rest, rfl, same⟩

theorem not_outstanding_nil (entry : Pending α) : ¬ Outstanding [] entry := by
  rintro ⟨before, after, split, -⟩
  simp at split

/-- What is outstanding after one more mark was so before, or has been set by it. -/
theorem outstanding_concat_iff :
    Outstanding (past ++ [mark]) entry ↔
      mark = .set entry ∨ Outstanding past entry ∧ ¬ mark.Ends entry := by
  constructor
  · rintro ⟨before, after, split, lasts⟩
    rcases concat_eq_append_cons split with ⟨-, same, -⟩ | ⟨rest, rfl, known⟩
    · exact Or.inl same
    · refine Or.inr ⟨⟨before, rest, known, fun other member => ?_⟩, ?_⟩
      · exact lasts other (List.mem_append_left _ member)
      · exact lasts mark (List.mem_append_right _ (List.mem_singleton_self _))
  · rintro (rfl | ⟨⟨before, after, rfl, lasts⟩, goesOn⟩)
    · exact ⟨past, [], rfl, fun _ none => absurd none List.not_mem_nil⟩
    · refine ⟨before, after ++ [mark], by simp, fun other member => ?_⟩
      rcases List.mem_append.1 member with known | last
      · exact lasts other known
      · rwa [List.mem_singleton.1 last]

end Outstanding

section Calls

structure Leaves (timers : Timers α) (mark : Mark α) (after : Timers α) : Prop where
  wellFormed : after.WellFormed
  clock : timers.now ≤ after.now
  inTime : after.now ≤ latest
  pending : ∀ entry, entry ∈ after.pending ↔
    mark = .set entry ∨ entry ∈ timers.pending ∧ ¬ mark.Ends entry
  numbers : after.nextId = timers.nextId + mark.set?.toList.length
  set : ∀ entry, mark = .set entry → entry.id = timers.nextId ∧ timers.now ≤ entry.due
  fired : ∀ entry, mark = .fired entry → entry ∈ timers.pending ∧ entry.due ≤ after.now ∧
    ∀ other ∈ after.pending, Precedes entry other

theorem fired?_eq_some_iff : mark.fired? = some entry ↔ mark = .fired entry := by
  cases mark <;> simp [Mark.fired?]

theorem toNat_le_latest (time : UInt64) : time.toNat ≤ latest :=
  Nat.le_sub_one_of_lt time.toNat_lt

theorem leaves_schedule (wellFormed : timers.WellFormed) (inTime : timers.now ≤ latest)
    (delay : Nat) (event : α) :
    Leaves timers (.set ⟨timers.nextId, min (timers.now + delay) latest, event⟩)
      (timers.schedule delay event).2 where
  wellFormed := wellFormed.schedule delay event
  clock := Nat.le_refl _
  inTime := inTime
  pending entry := by
    simp only [schedule, List.mem_append, List.mem_singleton, Mark.set.injEq, Mark.Ends,
      not_false_eq_true, and_true]
    rw [or_comm, eq_comm]
    rfl
  numbers := rfl
  set entry same := by
    cases same
    exact ⟨rfl, le_later inTime delay⟩
  fired entry other := by cases other

theorem leaves_cancel (wellFormed : timers.WellFormed) (inTime : timers.now ≤ latest) (id : Nat) :
    Leaves timers (.cancelled id) (timers.cancel id).2 where
  wellFormed := wellFormed.cancel id
  clock := Nat.le_refl _
  inTime := inTime
  pending entry := by
    rw [cancel, List.mem_filter, Bool.not_eq_true', decide_eq_false_iff_not, eq_comm]
    simp [Mark.Ends]
  numbers := rfl
  set entry other := by cases other
  fired entry other := by cases other

theorem leaves_clear (inTime : timers.now ≤ latest) : Leaves timers .cleared timers.clear where
  wellFormed := wellFormed_of_nil rfl
  clock := Nat.le_refl _
  inTime := inTime
  pending entry := by simp [clear, Mark.Ends]
  numbers := rfl
  set entry other := by cases other
  fired entry other := by cases other

theorem leaves_pop? (wellFormed : timers.WellFormed) (inTime : timers.now ≤ latest) {limit : Nat}
    (le : limit ≤ latest) (popped : timers.pop? limit = some (entry, after)) :
    Leaves timers (.fired entry) after := by
  obtain ⟨here, numbers, remains⟩ := pop?_eq_some wellFormed popped
  obtain ⟨due, now⟩ := now_of_pop? popped
  have pending : ∀ other, other ∈ after.pending ↔ other ∈ timers.pending ∧ entry ≠ other := by
    intro other
    rw [remains, cancel, List.mem_filter, Bool.not_eq_true', decide_eq_false_iff_not]
    refine and_congr_right fun there => not_congr ?_
    exact ⟨fun same => wellFormed.entry_eq here there same.symm, fun same => by rw [same]⟩
  constructor
  · exact wellFormed.pop? popped
  · rw [now]
    exact Nat.le_max_left _ _
  · rw [now]
    exact Nat.max_le.2 ⟨inTime, Nat.le_trans due le⟩
  · intro other
    rw [pending other]
    simp [Mark.Ends]
  · exact numbers
  · intro other same
    cases same
  · rintro _ ⟨⟩
    exact ⟨here, now ▸ Nat.le_max_right _ _, fun other => precedes_of_pop? wellFormed popped⟩

/-- A call moves the clock and leaves no mark, or it leaves one. -/
theorem call_cases (wellFormed : timers.WellFormed) (inTime : timers.now ≤ latest)
    (next : Call α) :
    (∃ time ≤ latest, timers.marks next = [] ∧ timers.call next = timers.advanceTo time) ∨
      ∃ mark, timers.marks next = [mark] ∧ Leaves timers mark (timers.call next) := by
  cases next with
  | schedule delay event =>
      exact Or.inr ⟨_, rfl, leaves_schedule wellFormed inTime delay.toNat event⟩
  | cancel id => exact Or.inr ⟨_, rfl, leaves_cancel wellFormed inTime id⟩
  | pop limit =>
      rw [marks, call]
      cases popped : timers.pop? limit.toNat with
      | none =>
          refine Or.inl ⟨timers.now, inTime, rfl, ?_⟩
          rw [advanceTo, Nat.max_self]
      | some result =>
          exact Or.inr ⟨_, rfl, leaves_pop? wellFormed inTime (toNat_le_latest limit) popped⟩
  | advance time => exact Or.inl ⟨time.toNat, toNat_le_latest time, rfl, rfl⟩
  | clear => exact Or.inr ⟨_, rfl, leaves_clear inTime⟩

end Calls

section Runs

/-- A history that tells which timers were set, which of them are pending, and that none of those
that fired had fired before or been taken back. -/
structure Accounts (past : List (Mark α)) (timers : Timers α) : Prop where
  numbered : (past.filterMap Mark.set?).map (·.id) = List.range timers.nextId
  pending : ∀ entry, entry ∈ timers.pending ↔ Outstanding past entry
  fired : ∀ before entry after, past = before ++ .fired entry :: after → Outstanding before entry

/-- A history in which timers fire in their order, ahead of all that are pending or yet to be
set. -/
structure InTurn (past : List (Mark α)) (timers : Timers α) : Prop where
  ordered : (past.filterMap Mark.fired?).Pairwise Precedes
  pending : ∀ earlier ∈ past.filterMap Mark.fired?, ∀ entry ∈ timers.pending,
    Precedes earlier entry
  clock : ∀ earlier ∈ past.filterMap Mark.fired?, earlier.due ≤ timers.now
  numbers : ∀ earlier ∈ past.filterMap Mark.fired?, earlier.id < timers.nextId

structure Follows (past : List (Mark α)) (timers : Timers α) : Prop where
  wellFormed : timers.WellFormed
  inTime : timers.now ≤ latest
  accounts : Accounts past timers
  inTurn : InTurn past timers

theorem Accounts.concat (accounts : Accounts past timers) (leaves : Leaves timers mark after) :
    Accounts (past ++ [mark]) after where
  numbered := by
    rw [List.filterMap_append, List.map_append, accounts.numbered, leaves.numbers]
    cases mark with
    | set entry =>
        have number := (leaves.set entry rfl).1
        simp [Mark.set?, List.range_succ, number]
    | fired entry => simp [Mark.set?]
    | cancelled id => simp [Mark.set?]
    | cleared => simp [Mark.set?]
  pending entry := by rw [outstanding_concat_iff, leaves.pending entry, accounts.pending entry]
  fired before entry behind split := by
    rcases concat_eq_append_cons split with ⟨rfl, same, -⟩ | ⟨rest, -, known⟩
    · exact (accounts.pending entry).1 (leaves.fired entry same).1
    · exact accounts.fired before entry rest known

/-- A timer that is set falls due after all that have fired, and so does one that was pending. -/
theorem InTurn.precedes (inTurn : InTurn past timers) (leaves : Leaves timers mark after)
    {earlier : Pending α} (known : earlier ∈ past.filterMap Mark.fired?)
    (member : entry ∈ after.pending) : Precedes earlier entry := by
  rcases (leaves.pending entry).1 member with same | ⟨before, -⟩
  · obtain ⟨number, late⟩ := leaves.set entry same
    have below := inTurn.numbers earlier known
    have reached := inTurn.clock earlier known
    unfold Precedes
    omega
  · exact inTurn.pending earlier known entry before

theorem InTurn.concat (wellFormed : timers.WellFormed) (inTurn : InTurn past timers)
    (leaves : Leaves timers mark after) : InTurn (past ++ [mark]) after := by
  have clock := leaves.clock
  have numbers : timers.nextId ≤ after.nextId := leaves.numbers ▸ Nat.le_add_right _ _
  have fired : ∀ earlier, earlier ∈ (past ++ [mark]).filterMap Mark.fired? ↔
      earlier ∈ past.filterMap Mark.fired? ∨ mark = .fired earlier := by
    intro earlier
    simp [List.filterMap_append, fired?_eq_some_iff]
  constructor
  · rw [List.filterMap_append, List.pairwise_append]
    refine ⟨inTurn.ordered, ?_, fun earlier known entry last => ?_⟩
    · cases mark with
      | fired entry => exact List.pairwise_singleton _ _
      | set entry => exact List.Pairwise.nil
      | cancelled id => exact List.Pairwise.nil
      | cleared => exact List.Pairwise.nil
    · obtain ⟨_, here, fires⟩ := List.mem_filterMap.1 last
      rw [List.mem_singleton.1 here, fired?_eq_some_iff] at fires
      exact inTurn.pending earlier known entry (leaves.fired entry fires).1
  · intro earlier member entry waits
    rcases (fired earlier).1 member with known | last
    · exact inTurn.precedes leaves known waits
    · exact (leaves.fired earlier last).2.2 entry waits
  · intro earlier member
    rcases (fired earlier).1 member with known | last
    · exact Nat.le_trans (inTurn.clock earlier known) clock
    · exact (leaves.fired earlier last).2.1
  · intro earlier member
    rcases (fired earlier).1 member with known | last
    · exact Nat.lt_of_lt_of_le (inTurn.numbers earlier known) numbers
    · have below := wellFormed.numbered earlier (leaves.fired earlier last).1
      exact Nat.lt_of_lt_of_le below numbers

theorem follows_start : Follows [] (start : Timers α) where
  wellFormed := wellFormed_of_nil rfl
  inTime := Nat.zero_le _
  accounts :=
    { numbered := rfl
      pending := fun entry => iff_of_false List.not_mem_nil (not_outstanding_nil entry)
      fired := fun before entry after split => by simp at split }
  inTurn :=
    { ordered := List.Pairwise.nil
      pending := fun _ none => absurd none List.not_mem_nil
      clock := fun _ none => absurd none List.not_mem_nil
      numbers := fun _ none => absurd none List.not_mem_nil }

/-- One call leads on from a history, and the clock does not go back. -/
theorem Follows.call (follows : Follows past timers) (next : Call α) :
    Follows (past ++ timers.marks next) (timers.call next) ∧
      timers.now ≤ (timers.call next).now := by
  rcases call_cases follows.wellFormed follows.inTime next with
    ⟨time, le, unmarked, moved⟩ | ⟨mark, marked, leaves⟩
  · rw [unmarked, moved, List.append_nil]
    have clock : timers.now ≤ (timers.advanceTo time).now := Nat.le_max_left _ _
    have inTurn := follows.inTurn
    refine ⟨⟨follows.wellFormed.advanceTo time, Nat.max_le.2 ⟨follows.inTime, le⟩, ?_, ?_⟩, clock⟩
    · exact ⟨follows.accounts.numbered, follows.accounts.pending, follows.accounts.fired⟩
    · refine ⟨inTurn.ordered, inTurn.pending, fun earlier known => ?_, inTurn.numbers⟩
      exact Nat.le_trans (inTurn.clock earlier known) clock
  · rw [marked]
    exact ⟨⟨leaves.wellFormed, leaves.inTime, follows.accounts.concat leaves,
      follows.inTurn.concat follows.wellFormed leaves⟩, leaves.clock⟩

theorem Follows.run (follows : Follows past timers) (calls : List (Call α)) :
    Follows (past ++ timers.history calls) (timers.run calls) ∧
      timers.now ≤ (timers.run calls).now := by
  induction calls generalizing timers past with
  | nil =>
      rw [history, List.append_nil]
      exact ⟨follows, Nat.le_refl _⟩
  | cons first rest ih =>
      obtain ⟨next, clock⟩ := follows.call first
      obtain ⟨last, onward⟩ := ih next
      rw [history, ← List.append_assoc]
      exact ⟨last, Nat.le_trans clock onward⟩

/-- However timers are worked, the clock never goes back; what fires does so in the order of times
and numbers; what is pending is what was set and has had no end since, and only that fires; nothing
is taken out just when nothing is due, and what is taken out moves the clock to its time. -/
theorem history_in_turn (calls : List (Call α)) :
    let timers := (start : Timers α).run calls
    let past := (start : Timers α).history calls
    (∀ more, timers.now ≤ (timers.run more).now) ∧
      (past.filterMap Mark.fired?).Pairwise Precedes ∧
      (past.filterMap Mark.set?).map (·.id) = List.range timers.nextId ∧
      timers.pending.Nodup ∧
      (∀ entry, entry ∈ timers.pending ↔ Outstanding past entry) ∧
      (∀ before entry after, past = before ++ .fired entry :: after → Outstanding before entry) ∧
      (∀ limit, timers.pop? limit = none ↔ ∀ entry ∈ timers.pending, limit < entry.due) ∧
      ∀ limit entry after, timers.pop? limit = some (entry, after) →
        entry ∈ timers.pending ∧ entry.due ≤ limit ∧ after.now = max timers.now entry.due := by
  intro timers past
  have follows : Follows past timers := (follows_start.run calls).1
  refine ⟨fun more => (follows.run more).2, follows.inTurn.ordered, follows.accounts.numbered,
    List.Nodup.of_map _ follows.wellFormed.distinct, follows.accounts.pending,
    follows.accounts.fired, fun limit => pop?_eq_none_iff, fun limit entry after popped => ?_⟩
  exact ⟨(mem_of_pop? popped).1, now_of_pop? popped⟩

/-- An event fires late, after the clock has moved past it, and under a limit that lies behind the
clock; the one that is left has the greatest time there is, and that is where its end takes the
clock. -/
theorem history_in_turn_lastChime :
    let calls : List (Call String) :=
      [.schedule 300 "alarm", .schedule 100 "bell", .advance 500, .pop 200,
        .schedule 0xFFFFFFFFFFFFFFFF "chime", .cancel 0, .pop 1000]
    let timers := start.run calls
    let chime : Pending String := ⟨2, latest, "chime"⟩
    (start.history calls).filterMap Mark.fired? = [⟨1, 100, "bell"⟩] ∧
      Outstanding (start.history calls) chime ∧
      ∃ after, timers.pop? latest = some (chime, after) ∧
        chime ∈ timers.pending ∧ chime.due ≤ latest ∧ after.now = max timers.now chime.due := by
  intro calls timers chime
  obtain ⟨-, -, -, -, pending, -, -, popped⟩ := history_in_turn calls
  refine ⟨rfl, (pending chime).1 List.mem_cons_self, ⟨latest, 3, []⟩, rfl, ?_⟩
  exact popped latest chime _ rfl

end Runs

end PuzzleShell.Timers

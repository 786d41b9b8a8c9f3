import Mathlib.Data.List.Induction
import PuzzleShell.Proofs.Json.RoundTrip
import PuzzleShell.Store.File
import PuzzleShell.Store.Progress

/-!
# Stored progress is read again

Progress is stored as a text of JSON under two keys.  What has been stored is read again as it was,
provided that its numbers fit into 32 bits, as all of them do.  Whatever text was there before, what
is read from it is a sorted list of such numbers, or a countdown with such a number of seconds.
-/

namespace PuzzleShell

/-- A store that never fails to keep a text, and then has that text under its key. -/
class LawfulStore (σ : Type) [Store σ] : Prop where
  set_ok (store : σ) (key value : String) : (Store.set store key value).1 = .ok ()
  get_set (store : σ) (key value other : String) :
    Store.get (Store.set store key value).2 other =
      if other = key then .ok (some value) else Store.get store other

/-- A store that has a text under its key once it has accepted it. -/
class FaithfulStore (σ : Type) [Store σ] : Prop where
  get_set_self (store : σ) (key value : String)
    (accepted : (Store.set store key value).1 = .ok ()) :
    Store.get (Store.set store key value).2 key = .ok (some value)

instance {σ : Type} [Store σ] [LawfulStore σ] : FaithfulStore σ where
  get_set_self store key value _ := by rw [LawfulStore.get_set, if_pos rfl]

/-- The entries of a store in a file are as they were put, whatever becomes of the file. -/
instance : FaithfulStore FileStore where
  get_set_self store key value _ := by
    change Except.ok (Dictionary.get? key (store.setOn .faultless key value).2.entries) = _
    rw [FileStore.entries_setOn, Dictionary.get?_put, if_pos rfl]

instance : LawfulStore MemoryStore where
  set_ok _ _ _ := rfl
  get_set store key value other := by
    change Except.ok (Dictionary.get? other (Dictionary.put key value store.entries)) = _
    rw [Dictionary.get?_put]
    split <;> rfl

namespace Solved

variable {id : Nat} {solved : Solved} {ids : List Nat}

/-- The greatest identifier comes last. -/
theorem insert_eq_append (above : ∀ other ∈ solved, other < id) :
    insert id solved = solved ++ [id] := by
  induction solved with
  | nil => rfl
  | cons first rest ih =>
      rw [List.forall_mem_cons] at above
      rw [insert, if_neg (Nat.not_lt_of_gt above.1), if_neg (Nat.ne_of_gt above.1), ih above.2,
        List.cons_append]

theorem sorted_insert (id : Nat) (sorted : solved.Pairwise (· < ·)) :
    (insert id solved).Pairwise (· < ·) := by
  induction solved with
  | nil => exact List.pairwise_singleton _ _
  | cons first rest ih =>
      rw [List.pairwise_cons] at sorted
      rw [insert]
      split
      next below =>
        refine List.pairwise_cons.2 ⟨fun other member => ?_, List.pairwise_cons.2 sorted⟩
        rcases List.mem_cons.1 member with rfl | later
        · exact below
        · exact Nat.lt_trans below (sorted.1 other later)
      next notBelow =>
        split
        · exact List.pairwise_cons.2 sorted
        next different =>
          refine List.pairwise_cons.2 ⟨fun other member => ?_, ih sorted.2⟩
          rcases mem_insert.1 member with rfl | later
          · omega
          · exact sorted.1 other later

theorem sorted_ofList (ids : List Nat) : (ofList ids).Pairwise (· < ·) :=
  List.foldlRecOn ids _ List.Pairwise.nil fun _ sorted id _ => sorted_insert id sorted

/-- A set holds what it was made of. -/
theorem mem_of_mem_ofList (member : id ∈ ofList ids) : id ∈ ids := by
  refine List.foldlRecOn (motive := fun solved => id ∈ solved → id ∈ ids) ids _
    (fun none => absurd none List.not_mem_nil) (fun solved held other listed member => ?_) member
  rcases mem_insert.1 member with rfl | before
  · exact listed
  · exact held before

/-- Numbers that are in order already are listed as they are. -/
theorem ofList_eq_self (sorted : ids.Pairwise (· < ·)) : ofList ids = ids := by
  induction ids using List.reverseRecOn with
  | nil => rfl
  | append_singleton front last ih =>
      obtain ⟨before, -, above⟩ := List.pairwise_append.1 sorted
      rw [ofList, List.foldl_append, ← ofList, ih before]
      exact insert_eq_append fun other member => above other member last List.mem_cons_self

end Solved

namespace Document

variable {α : Type} {read : Document → Option α}

/-- Whatever is read from a list is read from one of its items. -/
theorem exists_item_of_mapM {items : List Document} {values : List α} {value : α}
    (readable : items.mapM read = some values) (member : value ∈ values) :
    ∃ item, read item = some value := by
  induction items generalizing values with
  | nil =>
      obtain rfl := Option.some.inj readable
      cases member
  | cons item rest ih =>
      rw [List.mapM_cons] at readable
      obtain ⟨first, begins, others⟩ := Option.bind_eq_some_iff.1 readable
      obtain ⟨following, goesOn, listed⟩ := Option.bind_eq_some_iff.1 others
      obtain rfl := Option.some.inj listed
      rcases List.mem_cons.1 member with rfl | later
      · exact ⟨item, begins⟩
      · exact ih goesOn later

theorem lt_of_asNat? {bound value : Nat} {document : Document}
    (read : document.asNat? bound = some value) : value < bound := by
  cases document with
  | integer number =>
      simp only [asNat?] at read
      split at read
      next fits =>
        obtain rfl := Option.some.inj read
        omega
      · cases read
  | _ => cases read

theorem asNat?_natCast {bound value : Nat} (fits : value < bound) :
    asNat? bound (.integer value) = some value := by
  have within : (0 : Int) ≤ value ∧ (value : Int) < bound := by omega
  rw [asNat?, if_pos within, Int.toNat_natCast]

end Document

namespace Progress

variable {solved : Solved} {countdown : Countdown}

/-! ## Documents -/

theorem plain_documentOfSolved (solved : Solved) : (documentOfSolved solved).Plain := by
  rw [documentOfSolved, Document.Plain]
  induction solved with
  | nil => trivial
  | cons id rest ih => exact ⟨trivial, ih⟩

theorem plain_documentOfCountdown (countdown : Countdown) :
    (documentOfCountdown countdown).Plain :=
  ⟨trivial, trivial, trivial, trivial⟩

/-- Identifiers in order are read again from the document that lists them. -/
theorem solvedOf?_documentOfSolved (sorted : solved.Pairwise (· < ·))
    (fits : ∀ id ∈ solved, id < 1 <<< 32) :
    solvedOf? (documentOfSolved solved) = some solved := by
  have listed : (solved.map fun (id : Nat) => Document.integer id).mapM
      (Document.asNat? (1 <<< 32)) = some solved := by
    clear sorted
    induction solved with
    | nil => rfl
    | cons id rest ih =>
        rw [List.forall_mem_cons] at fits
        rw [List.map_cons, List.mapM_cons, Document.asNat?_natCast fits.1, ih fits.2]
        rfl
  rw [solvedOf?, documentOfSolved, Document.asList?]
  simp only [listed, Option.map_some, Solved.ofList_eq_self sorted]

/-- A countdown is read from a record field by field. -/
theorem countdownOf?_record {fields : List (String × Document)} {active exploded : Bool}
    {left : Nat} (once : repeats fields = false)
    (isActive : Document.optionalField? fields "active" false (·.asBoolean?) = some active)
    (seconds : Document.optionalField? fields "time_left" 0 (·.asNat? (1 <<< 32)) = some left)
    (isExploded : Document.optionalField? fields "exploded" false (·.asBoolean?) = some exploded) :
    countdownOf? (.record fields) = some ⟨active, left, exploded⟩ := by
  simp only [countdownOf?, Document.asFields?, Option.bind_eq_bind, Option.bind_some, once,
    Bool.false_eq_true, if_false, isActive, seconds, isExploded]

/-- A countdown is read again from the document that describes it. -/
theorem countdownOf?_documentOfCountdown (fits : countdown.timeLeft < 1 <<< 32) :
    countdownOf? (documentOfCountdown countdown) = some countdown := by
  have seconds := Document.asNat?_natCast fits
  apply countdownOf?_record
  · simp [repeats, countdownFields]
  · simp [Document.optionalField?, Document.lastValue?, List.lookup_cons, Document.asBoolean?]
  · simpa [Document.optionalField?, Document.lastValue?, List.lookup_cons] using seconds
  · simp [Document.optionalField?, Document.lastValue?, Document.asBoolean?]

/-- Whatever document a set of identifiers is read from, it is in order and fits. -/
theorem sorted_of_solvedOf? {document : Document} (read : solvedOf? document = some solved) :
    solved.Pairwise (· < ·) ∧ ∀ id ∈ solved, id < 1 <<< 32 := by
  obtain ⟨ids, listed, rfl⟩ := Option.map_eq_some_iff.1 read
  refine ⟨Solved.sorted_ofList ids, fun id member => ?_⟩
  cases document with
  | list items =>
      obtain ⟨item, spelled⟩ :=
        Document.exists_item_of_mapM listed (Solved.mem_of_mem_ofList member)
      exact Document.lt_of_asNat? spelled
  | _ => cases listed

theorem timeLeft_inactive_lt : Countdown.inactive.timeLeft < 1 <<< 32 :=
  Nat.one_shiftLeft 32 ▸ Nat.two_pow_pos 32

/-- Whatever document a countdown is read from, its seconds fit. -/
theorem timeLeft_lt_of_countdownOf? {document : Document}
    (read : countdownOf? document = some countdown) : countdown.timeLeft < 1 <<< 32 := by
  obtain ⟨fields, -, named⟩ := Option.bind_eq_some_iff.1 read
  split at named
  · cases named
  · obtain ⟨active, -, others⟩ := Option.bind_eq_some_iff.1 named
    obtain ⟨left, seconds, last⟩ := Option.bind_eq_some_iff.1 others
    obtain ⟨exploded, -, described⟩ := Option.bind_eq_some_iff.1 last
    obtain rfl := Option.some.inj described
    unfold Document.optionalField? at seconds
    split at seconds
    · obtain rfl := Option.some.inj seconds
      exact timeLeft_inactive_lt
    · exact Document.lt_of_asNat? seconds

/-! ## Stores -/

section Stores

variable {σ : Type} [Store σ] {key other : String} {store : σ}

/-- What is read as the solved challenges, from whatever text there is. -/
theorem sorted_loadSolved? (store : σ) (key : String) :
    ((loadSolved? store key).getD []).Pairwise (· < ·) ∧
      ∀ id ∈ (loadSolved? store key).getD [], id < 1 <<< 32 := by
  cases loaded : loadSolved? store key with
  | none => exact ⟨.nil, List.forall_mem_nil _⟩
  | some solved =>
      obtain ⟨document, -, read⟩ := Option.bind_eq_some_iff.1 loaded
      exact sorted_of_solvedOf? read

/-- The seconds that are read, from whatever text there is. -/
theorem timeLeft_loadCountdown?_lt (store : σ) (key : String) :
    ((loadCountdown? store key).getD .inactive).timeLeft < 1 <<< 32 := by
  cases loaded : loadCountdown? store key with
  | none => exact timeLeft_inactive_lt
  | some countdown =>
      obtain ⟨document, -, read⟩ := Option.bind_eq_some_iff.1 loaded
      exact timeLeft_lt_of_countdownOf? read

/-- A plain document is there once it has been accepted. -/
theorem load?_of_accepted [FaithfulStore σ] {document : Document} (plain : document.Plain)
    (accepted : (Store.set store key (Json.compact document)).1 = .ok ()) :
    load? (Store.set store key (Json.compact document)).2 key = some document := by
  simp only [load?, FaithfulStore.get_set_self store key _ accepted]
  exact Json.read?_compact plain

/-- A countdown is read again once it has been accepted. -/
theorem loadCountdown?_of_accepted [FaithfulStore σ] (fits : countdown.timeLeft < 1 <<< 32)
    (accepted : (saveCountdown store key countdown).1 = .ok ()) :
    loadCountdown? (saveCountdown store key countdown).2 key = some countdown := by
  rw [loadCountdown?, saveCountdown,
    load?_of_accepted (plain_documentOfCountdown countdown) accepted, Option.bind_eq_bind,
    Option.bind_some, countdownOf?_documentOfCountdown fits]

variable [LawfulStore σ]

/-- A plain document that has been stored is there. -/
theorem load?_set {document : Document} (plain : document.Plain) (store : σ) (key : String) :
    load? (Store.set store key (Json.compact document)).2 key = some document :=
  load?_of_accepted plain (LawfulStore.set_ok store key _)

/-- What is stored under another key stays there. -/
theorem load?_set_of_ne (different : key ≠ other) (store : σ) (text : String) :
    load? (Store.set store other text).2 key = load? store key := by
  simp only [load?, LawfulStore.get_set, if_neg different]

theorem loadSolved?_saveSolved (sorted : solved.Pairwise (· < ·))
    (fits : ∀ id ∈ solved, id < 1 <<< 32) :
    loadSolved? (saveSolved store key solved).2 key = some solved := by
  rw [loadSolved?, saveSolved, load?_set (plain_documentOfSolved solved), Option.bind_eq_bind,
    Option.bind_some, solvedOf?_documentOfSolved sorted fits]

theorem loadCountdown?_saveCountdown (fits : countdown.timeLeft < 1 <<< 32) :
    loadCountdown? (saveCountdown store key countdown).2 key = some countdown :=
  loadCountdown?_of_accepted fits (LawfulStore.set_ok store key _)

theorem loadSolved?_saveCountdown (different : key ≠ other) (countdown : Countdown) :
    loadSolved? (saveCountdown store other countdown).2 key = loadSolved? store key := by
  rw [loadSolved?, saveCountdown, load?_set_of_ne different, loadSolved?]

theorem loadCountdown?_saveSolved (different : key ≠ other) (solved : Solved) :
    loadCountdown? (saveSolved store other solved).2 key = loadCountdown? store key := by
  rw [loadCountdown?, saveSolved, load?_set_of_ne different, loadCountdown?]

end Stores

end Progress

end PuzzleShell

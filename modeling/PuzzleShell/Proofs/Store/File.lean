import PuzzleShell.Proofs.Json.Table
import PuzzleShell.Proofs.Store.Disk

/-!
# A store and its file

The entries of a store are in the order of their keys, so what has been written into the file is
read again as it was.  On a medium that keeps the file a change of the store replaces what the file
reads as by the whole store, if it is accepted, and otherwise leaves it as it was.
-/

namespace PuzzleShell

namespace Dictionary

variable {dictionary entries : Dictionary} {key value : String}

def Sorted (dictionary : Dictionary) : Prop :=
  dictionary.Pairwise fun entry other => entry.1 < other.1

theorem mem_put {entry : String × String} (member : entry ∈ put key value dictionary) :
    entry = (key, value) ∨ entry ∈ dictionary := by
  induction dictionary with
  | nil => exact Or.inl (List.mem_singleton.1 member)
  | cons first rest ih =>
      obtain ⟨known, old⟩ := first
      rw [put] at member
      split at member
      · exact (List.mem_cons.1 member).imp_right (List.mem_cons_of_mem _)
      · split at member
        · exact List.mem_cons.1 member
        · rcases List.mem_cons.1 member with rfl | later
          · exact Or.inr List.mem_cons_self
          · exact (ih later).imp_right (List.mem_cons_of_mem _)

theorem sorted_put (sorted : Sorted dictionary) (key value : String) :
    Sorted (put key value dictionary) := by
  induction dictionary with
  | nil => exact List.pairwise_singleton _ _
  | cons first rest ih =>
      obtain ⟨known, old⟩ := first
      obtain ⟨before, others⟩ := List.pairwise_cons.1 sorted
      rw [put]
      split
      next same =>
        subst same
        exact List.pairwise_cons.2 ⟨before, others⟩
      next different =>
        split
        next below =>
          refine List.pairwise_cons.2 ⟨fun entry member => ?_, sorted⟩
          rcases List.mem_cons.1 member with rfl | later
          · exact below
          · exact String.lt_trans below (before entry later)
        next notBelow =>
          refine List.pairwise_cons.2 ⟨fun entry member => ?_, ih others⟩
          rcases mem_put member with rfl | later
          · by_contra notAbove
            have same := String.le_antisymm (String.not_lt.1 notAbove) (String.not_lt.1 notBelow)
            exact different same
          · exact before entry later

/-- The greatest key comes last. -/
theorem put_eq_append (above : ∀ entry ∈ dictionary, entry.1 < key) (value : String) :
    put key value dictionary = dictionary ++ [(key, value)] := by
  induction dictionary with
  | nil => rfl
  | cons first rest ih =>
      obtain ⟨known, old⟩ := first
      rw [List.forall_mem_cons] at above
      have different : key ≠ known := fun same => String.lt_irrefl known (same ▸ above.1)
      rw [put, if_neg different, if_neg (String.lt_asymm above.1), ih above.2, List.cons_append]

theorem sorted_foldl_put (entries : List (String × String)) (sorted : Sorted dictionary) :
    Sorted (entries.foldl (fun dictionary entry => put entry.1 entry.2 dictionary) dictionary) := by
  induction entries generalizing dictionary with
  | nil => exact sorted
  | cons entry rest ih => exact ih (sorted_put sorted entry.1 entry.2)

theorem sorted_ofList (entries : List (String × String)) : Sorted (ofList entries) :=
  sorted_foldl_put entries List.Pairwise.nil

/-- Entries in the order of their keys are a dictionary as they are. -/
theorem ofList_of_sorted (sorted : Sorted entries) : ofList entries = entries := by
  induction entries using List.reverseRecOn with
  | nil => rfl
  | append_singleton front last ih =>
      obtain ⟨before, -, above⟩ := List.pairwise_append.1 sorted
      have kept := ih before
      rw [ofList] at kept ⊢
      rw [List.foldl_concat, kept]
      exact put_eq_append (fun entry member => above entry member last List.mem_cons_self) last.2

end Dictionary

namespace FileStore

variable {disk other : Disk} {path text : String} {store start : FileStore}

/-! ## Reading the file -/

theorem sorted_entriesOf (text : String) : (entriesOf text).Sorted := by
  unfold entriesOf
  split
  · exact Dictionary.sorted_ofList _
  · exact List.Pairwise.nil

theorem asTable?_textFields (entries : List (String × String)) :
    Document.asTable? (·.asText?) (.record (Json.textFields entries)) = some entries := by
  rw [Document.asTable?]
  induction entries with
  | nil => rfl
  | cons entry rest ih =>
      rw [Json.textFields, List.map_cons, List.mapM_cons, ← Json.textFields, ih]
      rfl

/-- Entries that have been written are read again. -/
theorem entriesOf_prettyTexts {entries : Dictionary} (sorted : entries.Sorted) :
    entriesOf (Json.prettyTexts entries) = entries := by
  have read : Json.read? (Json.prettyTexts entries) >>= Document.asTable? (·.asText?) =
      some entries := by
    rw [Json.read?_prettyTexts]
    exact asTable?_textFields entries
  rw [entriesOf, read]
  exact Dictionary.ofList_of_sorted sorted

/-- The text under a key in the store that is opened afresh in the same file. -/
def reopened (store : FileStore) (key : String) : Except Fault (Option String) := do
  Store.get (← openAt store.disk store.path) key

/-- What is found in a file that is opened afresh is told by what the file reads as. -/
theorem reopened_congr {store other : FileStore} (path : other.path = store.path)
    (read : other.disk.read store.path = store.disk.read store.path) (key : String) :
    other.reopened key = store.reopened key := by
  unfold reopened openAt
  rw [path, read]
  rcases store.disk.read store.path with fault | text
  · cases fault <;> rfl
  · rfl

/-- A store that has been written into its file is found there. -/
theorem reopened_of_read (sorted : store.entries.Sorted)
    (read : store.disk.read store.path = .ok (Json.prettyTexts store.entries)) (key : String) :
    store.reopened key = Store.get store key := by
  unfold reopened openAt
  rw [read]
  dsimp only
  rw [entriesOf_prettyTexts sorted]
  rfl

/-- A store that has been opened has the path and the disk that it was opened with. -/
theorem eq_of_openAt (opened : openAt disk path = .ok store) :
    store = ⟨path, store.entries, disk⟩ ∧ store.entries.Sorted := by
  unfold openAt at opened
  split at opened
  · cases opened
    exact ⟨rfl, sorted_entriesOf _⟩
  · cases opened
    exact ⟨rfl, List.Pairwise.nil⟩
  · cases opened

end FileStore

/-! ## Writing the file -/

/--
A medium that keeps a file: if it fails to write the draft or to put it into place, the file reads
as before, and otherwise it reads as what was written.
-/
structure Disk.Medium.Keeps (medium : Disk.Medium) (path : String) : Prop where
  unwritten : ∀ disk text fault after,
    medium.write disk (FileStore.draftPath path) text = (.error fault, after) →
    after.read path = disk.read path
  unplaced : ∀ disk text written fault after,
    medium.write disk (FileStore.draftPath path) text = (.ok (), written) →
    medium.rename written (FileStore.draftPath path) path = (.error fault, after) →
    after.read path = disk.read path
  placed : ∀ disk text written after,
    medium.write disk (FileStore.draftPath path) text = (.ok (), written) →
    medium.rename written (FileStore.draftPath path) path = (.ok (), after) →
    after.read path = .ok text

namespace FileStore

variable {disk other : Disk} {path text front name : String} {store start : FileStore}
  {medium : Disk.Medium}

theorem attempt_eq_ok_iff {outcome : Except DiskFault Disk} :
    Disk.Medium.attempt disk outcome = (.ok (), other) ↔ outcome = .ok other := by
  cases outcome <;> simp [Disk.Medium.attempt]

theorem attempt_eq_error_iff {outcome : Except DiskFault Disk} {fault : DiskFault} :
    Disk.Medium.attempt disk outcome = (.error fault, other) ↔
      outcome = .error fault ∧ other = disk := by
  cases outcome <;> simp [Disk.Medium.attempt, eq_comm]

/-- A medium on which a step fails with the fault that is given for it, before anything is done. -/
def failing (atWrite atRename : Option DiskFault) : Disk.Medium where
  write disk path text :=
    atWrite.elim (Disk.Medium.faultless.write disk path text) (.error ·, disk)
  rename disk source target :=
    atRename.elim (Disk.Medium.faultless.rename disk source target) (.error ·, disk)

theorem write_failing_none (atRename : Option DiskFault) (disk : Disk) (path text : String) :
    (failing none atRename).write disk path text =
      Disk.Medium.attempt disk (disk.write path text) :=
  rfl

theorem rename_failing_none (atWrite : Option DiskFault) (disk : Disk) (source target : String) :
    (failing atWrite none).rename disk source target =
      Disk.Medium.attempt disk (disk.rename source target) :=
  rfl

open Disk in
/-- The file of an entry is kept, unless it is its own draft and cannot be put into place. -/
theorem keeps_failing (isFront : IsFront front) (entry : IsEntry name) (proper : stem name ≠ ".")
    (atWrite : Option DiskFault) {atRename : Option DiskFault}
    (apart : name = stem name ++ ".tmp" → atRename = none) :
    (failing atWrite atRename).Keeps (front ++ name) := by
  have draft := draftPath_append isFront entry proper
  have another := isEntry_draft entry
  cases atWrite with
  | some refused =>
      constructor
      · intro disk text fault after written
        cases written
        rfl
      · intro disk text between fault after written
        cases written
      · intro disk text between after written
        cases written
  | none =>
      constructor
      · intro disk text fault after written
        rw [write_failing_none, attempt_eq_error_iff] at written
        rw [written.2]
      · intro disk text between fault after written moved
        rw [write_failing_none, attempt_eq_ok_iff, draft] at written
        rw [draft] at moved
        by_cases same : name = stem name ++ ".tmp"
        · rw [apart same, rename_failing_none, attempt_eq_error_iff] at moved
          have room : disk.HasRoom front name := by
            rw [← same] at written
            exact hasRoom_of_write isFront entry written
          obtain ⟨placed, renamed⟩ := room.exists_rename isFront entry another written
          cases renamed.symm.trans moved.1
        · have left : after = between := by
            cases atRename with
            | some refused =>
                cases moved
                rfl
            | none =>
                rw [rename_failing_none, attempt_eq_error_iff] at moved
                exact moved.2
          rw [left]
          exact read_of_write_beside isFront entry another same written
      · intro disk text between after written moved
        rw [write_failing_none, attempt_eq_ok_iff, draft] at written
        rw [draft] at moved
        cases atRename with
        | some refused => cases moved
        | none =>
            rw [rename_failing_none, attempt_eq_ok_iff] at moved
            exact read_of_rename isFront entry another written moved

open Disk in
/-- Where there is room for a file and its draft, nothing fails but by the faults of the medium. -/
theorem fst_flush_failing (isFront : IsFront front) (entry : IsEntry name)
    (proper : stem name ≠ ".") (located : store.path = front ++ name)
    (room : store.disk.HasRoom front name)
    (draftRoom : store.disk.HasRoom front (stem name ++ ".tmp"))
    (atWrite atRename : Option DiskFault) :
    (store.flush (failing atWrite atRename)).1 =
      (atWrite.or atRename).elim (.ok ()) fun fault => .error (.disk fault) := by
  have draft := draftPath_append isFront entry proper
  have another := isEntry_draft entry
  obtain ⟨between, written⟩ :=
    draftRoom.exists_write isFront another (Json.prettyTexts store.entries)
  obtain ⟨after, renamed⟩ := room.exists_rename isFront entry another written
  rw [flush, located, draft]
  cases atWrite with
  | some refused => rfl
  | none =>
      rw [write_failing_none, attempt_eq_ok_iff.2 written]
      cases atRename with
      | some refused => rfl
      | none =>
          dsimp only
          rw [rename_failing_none, attempt_eq_ok_iff.2 renamed]
          rfl

theorem directories_attempt {outcome : Except DiskFault Disk}
    (kept : ∀ after, outcome = .ok after → after.directories = disk.directories) :
    (Disk.Medium.attempt disk outcome).2.directories = disk.directories := by
  cases outcome with
  | error fault => rfl
  | ok after => exact kept after rfl

theorem directories_flush_failing (atWrite atRename : Option DiskFault) (store : FileStore) :
    (store.flush (failing atWrite atRename)).2.disk.directories = store.disk.directories := by
  have write (disk : Disk) (path text : String) :
      ((failing atWrite atRename).write disk path text).2.directories = disk.directories := by
    cases atWrite with
    | some refused => rfl
    | none => exact directories_attempt fun _ => Disk.directories_write
  have rename (disk : Disk) (source target : String) :
      ((failing atWrite atRename).rename disk source target).2.directories = disk.directories := by
    cases atRename with
    | some refused => rfl
    | none => exact directories_attempt fun _ => Disk.directories_rename
  have between := write store.disk (draftPath store.path) (Json.prettyTexts store.entries)
  unfold flush
  split
  next fault after written =>
    rw [written] at between
    exact between
  next written drafted =>
    rw [drafted] at between
    have after := rename written (draftPath store.path) store.path
    split
    next fault disk moved =>
      rw [moved] at after
      exact after.trans between
    next disk moved =>
      rw [moved] at after
      exact after.trans between

/-- The entries are in the file if writing it is accepted, and otherwise it reads as before. -/
theorem read_flush (keeps : medium.Keeps store.path) :
    ((store.flush medium).1 = .ok () →
      (store.flush medium).2.disk.read store.path = .ok (Json.prettyTexts store.entries)) ∧
    ∀ fault, (store.flush medium).1 = .error fault →
      (store.flush medium).2.disk.read store.path = store.disk.read store.path := by
  unfold flush
  rcases written : medium.write store.disk (draftPath store.path)
    (Json.prettyTexts store.entries) with ⟨fault | done, between⟩
  · exact ⟨nofun, fun _ _ => keeps.unwritten _ _ _ _ written⟩
  · dsimp only
    rcases moved : medium.rename between (draftPath store.path) store.path with
      ⟨fault | done, after⟩
    · exact ⟨nofun, fun _ _ => keeps.unplaced _ _ _ _ _ written moved⟩
    · exact ⟨fun _ => keeps.placed _ _ _ _ written moved, nofun⟩

end FileStore

end PuzzleShell

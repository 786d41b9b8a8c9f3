import Mathlib.Data.List.DropRight
import PuzzleShell.Proofs.Store.File

/-!
# What a store in a file remembers

A text that is put under a key is in the store at once, whatever becomes of the file.  The file is
replaced as a whole or not at all, so whoever opens it finds the store as it was after the last call
that was accepted.  The two agree after each accepted call, and a call that is refused makes them
differ unless the text was there already; the next call that is accepted brings its text into the
file as well.
-/

namespace PuzzleShell

namespace FileStore

variable {disk : Disk} {path : String} {store start : FileStore}

/-- A call that puts a text under a key, with what others do to the disk before. -/
structure Setting where
  meanwhile : Disk → Disk
  medium : Disk.Medium
  key : String
  value : String

def Setting.apply (setting : Setting) (store : FileStore) : Except Fault Unit × FileStore :=
  setOn setting.medium { store with disk := setting.meanwhile store.disk } setting.key setting.value

example (store : FileStore) (key value : String) :
    Store.set store key value = Setting.apply ⟨id, .faultless, key, value⟩ store := rfl

/-- A call that nobody interferes with, as far as the file is concerned. -/
structure Setting.Spares (setting : Setting) (path : String) : Prop where
  undisturbed : ∀ disk, (setting.meanwhile disk).read path = disk.read path
  keeps : setting.medium.Keeps path

structure Call where
  key : String
  value : String
  outcome : Except Fault Unit

def Call.failed (call : Call) : Bool :=
  call.outcome matches .error _

/-- The text that the last call for a key has put under it; without one it is the first text. -/
def latest (key : String) (calls : List Call) (first : Option String) : Option String :=
  calls.foldl (fun known call => if call.key = key then some call.value else known) first

def carryOut (settings : List Setting) (store : FileStore) : List Call × FileStore :=
  settings.foldl (fun state setting =>
    (state.1 ++ [⟨setting.key, setting.value, (setting.apply state.2).1⟩],
      (setting.apply state.2).2)) ([], store)

variable {setting : Setting} {calls : List Call} {key : String}

theorem latest_concat (key : String) (calls : List Call) (call : Call) (first : Option String) :
    latest key (calls ++ [call]) first =
      if call.key = key then some call.value else latest key calls first := by
  rw [latest, List.foldl_concat]
  rfl

theorem carryOut_concat (settings : List Setting) (last : Setting) (store : FileStore) :
    carryOut (settings ++ [last]) store =
      ((carryOut settings store).1 ++
          [⟨last.key, last.value, (last.apply (carryOut settings store).2).1⟩],
        (last.apply (carryOut settings store).2).2) := by
  rw [carryOut, List.foldl_concat]
  rfl

namespace Setting

def written (setting : Setting) (store : FileStore) : FileStore where
  path := store.path
  entries := Dictionary.put setting.key setting.value store.entries
  disk := setting.meanwhile store.disk

theorem entries_apply (setting : Setting) (store : FileStore) :
    (setting.apply store).2.entries = Dictionary.put setting.key setting.value store.entries :=
  entries_setOn _ _ _ _

theorem path_apply (setting : Setting) (store : FileStore) :
    (setting.apply store).2.path = store.path :=
  path_setOn _ _ _ _

/-- A call changes what the store gives for its key alone, whether it is accepted or refused. -/
theorem get_apply (setting : Setting) (store : FileStore) (key : String) :
    Store.get (setting.apply store).2 key =
      if key = setting.key then .ok (some setting.value) else Store.get store key := by
  change Except.ok (Dictionary.get? key (setting.apply store).2.entries) = _
  rw [entries_apply, Dictionary.get?_put]
  split <;> rfl

/-- A call that is accepted brings everything into the file that is in the store. -/
theorem reopened_apply_of_ok (spares : setting.Spares store.path) (sorted : store.entries.Sorted)
    (accepted : (setting.apply store).1 = .ok ()) (key : String) :
    (setting.apply store).2.reopened key = Store.get (setting.apply store).2 key := by
  refine reopened_of_read ?_ ?_ key
  · rw [entries_apply]
    exact Dictionary.sorted_put sorted _ _
  · rw [path_apply, entries_apply]
    exact (@read_flush (setting.written store) setting.medium spares.keeps).1 accepted

/-- A call that is refused changes nothing of what is found in the file. -/
theorem reopened_apply_of_error {fault : Fault} (spares : setting.Spares store.path)
    (refused : (setting.apply store).1 = .error fault) (key : String) :
    (setting.apply store).2.reopened key = store.reopened key := by
  refine reopened_congr (path_apply setting store) ?_ key
  have unread := (@read_flush (setting.written store) setting.medium spares.keeps).2 fault refused
  exact unread.trans (spares.undisturbed store.disk)

end Setting

/-- What a store and its file remember of the calls since it was opened. -/
structure Remembers (start : FileStore) (calls : List Call) (store : FileStore) : Prop where
  path : store.path = start.path
  sorted : store.entries.Sorted
  memory : ∀ key,
    Store.get store key = .ok (latest key calls (Dictionary.get? key start.entries))
  file : ∀ key, store.reopened key =
    .ok (latest key (calls.rdropWhile Call.failed) (Dictionary.get? key start.entries))

theorem remembers_of_openAt (opened : openAt disk path = .ok start) : Remembers start [] start := by
  obtain ⟨whole, sorted⟩ := eq_of_openAt opened
  refine ⟨rfl, sorted, fun _ => rfl, fun key => ?_⟩
  have again : openAt start.disk start.path = .ok start := by
    have same : openAt start.disk start.path = openAt disk path := by rw [whole]
    exact same.trans opened
  rw [reopened, again]
  rfl

/-- A further call is remembered by the store, and by its file if it is accepted. -/
theorem Remembers.apply (remembers : Remembers start calls store)
    (spares : setting.Spares start.path) :
    Remembers start (calls ++ [⟨setting.key, setting.value, (setting.apply store).1⟩])
      (setting.apply store).2 := by
  rw [← remembers.path] at spares
  have memory (key : String) : Store.get (setting.apply store).2 key =
      .ok (latest key (calls ++ [⟨setting.key, setting.value, (setting.apply store).1⟩])
        (Dictionary.get? key start.entries)) := by
    rw [setting.get_apply, latest_concat, remembers.memory]
    by_cases same : key = setting.key
    · rw [if_pos same, if_pos same.symm]
    · rw [if_neg same, if_neg (Ne.symm same)]
  refine ⟨?_, ?_, memory, fun key => ?_⟩
  · exact (setting.path_apply store).trans remembers.path
  · rw [setting.entries_apply]
    exact Dictionary.sorted_put remembers.sorted _ _
  · rcases outcome : (setting.apply store).1 with fault | done
    · rw [setting.reopened_apply_of_error spares outcome, remembers.file,
        List.rdropWhile_concat_pos _ _ _ rfl]
    · rw [setting.reopened_apply_of_ok spares remembers.sorted outcome, memory, outcome,
        List.rdropWhile_concat_neg _ _ _ Bool.false_ne_true]

/-- Whatever calls are made, what the store and its file remember of them is as it should be. -/
theorem remembers_carryOut (opened : openAt disk path = .ok start) {settings : List Setting}
    (spares : ∀ setting ∈ settings, setting.Spares path) :
    Remembers start (carryOut settings start).1 (carryOut settings start).2 := by
  have located : start.path = path := congrArg FileStore.path (eq_of_openAt opened).1
  induction settings using List.reverseRecOn with
  | nil => exact remembers_of_openAt opened
  | append_singleton before last ih =>
      rw [List.forall_mem_append, List.forall_mem_singleton] at spares
      rw [carryOut_concat]
      exact (ih spares.1).apply (located ▸ spares.2)

def Agrees (store : FileStore) : Prop :=
  ∀ key, store.reopened key = Store.get store key

theorem Setting.agrees_apply_iff (spares : setting.Spares store.path)
    (sorted : store.entries.Sorted) (agrees : store.Agrees) :
    (setting.apply store).2.Agrees ↔
      (setting.apply store).1 = .ok () ∨
        Store.get store setting.key = .ok (some setting.value) := by
  rcases outcome : (setting.apply store).1 with fault | done
  · have kept (key : String) : (setting.apply store).2.reopened key = Store.get store key :=
      (setting.reopened_apply_of_error spares outcome key).trans (agrees key)
    have there : (setting.apply store).2.Agrees ↔
        Store.get store setting.key = .ok (some setting.value) := by
      constructor
      · intro still
        have same := still setting.key
        rwa [kept, setting.get_apply, if_pos rfl] at same
      · intro already key
        rw [kept, setting.get_apply]
        split
        next same => rw [same, already]
        next => rfl
    simpa using there
  · exact iff_of_true (setting.reopened_apply_of_ok spares sorted outcome) (Or.inl rfl)

/--
A store gives for every key the text that was put there last, and its file the one that was put
there last up to the last call that was accepted.  A further call changes what the store gives for
its own key alone.  If it is refused then the file gives what it gave before, and if it is accepted
then the file gives everything that the store does: two that agreed go on to do so just if the call
is accepted or the text was there already.
-/
theorem gives_latest (opened : openAt disk path = .ok start) {settings : List Setting}
    (spares : ∀ setting ∈ settings, setting.Spares path)
    (carried : carryOut settings start = (calls, store)) :
    (∀ key, Store.get store key = .ok (latest key calls (Dictionary.get? key start.entries))) ∧
    (∀ key, store.reopened key =
      .ok (latest key (calls.rdropWhile Call.failed) (Dictionary.get? key start.entries))) ∧
    ∀ next : Setting, next.Spares path →
      (∀ key, Store.get (next.apply store).2 key =
        if key = next.key then .ok (some next.value) else Store.get store key) ∧
      (∀ fault, (next.apply store).1 = .error fault →
        ∀ key, (next.apply store).2.reopened key = store.reopened key) ∧
      ((next.apply store).1 = .ok () → (next.apply store).2.Agrees) ∧
      (store.Agrees → ((next.apply store).2.Agrees ↔
        (next.apply store).1 = .ok () ∨ Store.get store next.key = .ok (some next.value))) := by
  have remembers := remembers_carryOut opened spares
  rw [carried] at remembers
  have located : store.path = path :=
    remembers.path.trans (congrArg FileStore.path (eq_of_openAt opened).1)
  refine ⟨remembers.memory, remembers.file, fun next nextSpares => ?_⟩
  rw [← located] at nextSpares
  exact ⟨next.get_apply store, fun _ => next.reopened_apply_of_error nextSpares,
    next.reopened_apply_of_ok nextSpares remembers.sorted,
    next.agrees_apply_iff nextSpares remembers.sorted⟩

/-- A call that is accepted, one on a full disk and one whose draft cannot be put into place: the
store has all three of their texts and the file the first one, until another call is accepted. -/
theorem gives_latest_fullDisk :
    let full : DiskFault := .other "No space left on device (os error 28)"
    let start : FileStore := ⟨"state.json", [], .empty⟩
    let settings : List Setting := [⟨id, failing none none, "a", "1"⟩,
      ⟨id, failing (some full) none, "b", "2"⟩, ⟨id, failing none (some .busy), "a", "3"⟩]
    let calls : List Call := [⟨"a", "1", .ok ()⟩, ⟨"b", "2", .error (.disk full)⟩,
      ⟨"a", "3", .error (.disk .busy)⟩]
    let next : Setting := ⟨id, failing none none, "c", "4"⟩
    openAt .empty "state.json" = .ok start ∧
      (∀ setting ∈ settings, setting.Spares "state.json") ∧
      ∃ store, carryOut settings start = (calls, store) ∧
        Store.get store "a" = .ok (some "3") ∧ store.reopened "a" = .ok (some "1") ∧
        Store.get store "b" = .ok (some "2") ∧ store.reopened "b" = .ok none ∧
        (next.apply store).1 = .ok () ∧ (next.apply store).2.Agrees := by
  intro full start settings calls next
  have proper : stem "state.json" ≠ "." := by decide
  have opened : openAt .empty "state.json" = .ok start := by rfl
  have spared (atWrite atRename : Option DiskFault) (key value : String) :
      (⟨id, failing atWrite atRename, key, value⟩ : Setting).Spares "state.json" :=
    have apart : ¬ "state.json" = stem "state.json" ++ ".tmp" := by decide
    ⟨fun _ => rfl, @keeps_failing "" "state.json" (Or.inl rfl) (by decide) proper atWrite _
      fun same => absurd same apart⟩
  have fits : Disk.HasRoom .empty "" "state.json" := ⟨by rfl, by decide, [], rfl, rfl⟩
  have draftFits : Disk.HasRoom .empty "" (stem "state.json" ++ ".tmp") :=
    ⟨by rfl, by decide, [], rfl, by rfl⟩
  have outcome (atWrite atRename : Option DiskFault) (key value : String) (store : FileStore)
      (located : store.path = "state.json") (bare : store.disk.directories = []) :
      let call : Setting := ⟨id, failing atWrite atRename, key, value⟩
      (call.apply store).1 =
          ((atWrite.or atRename).elim (.ok ()) fun fault => .error (.disk fault)) ∧
        (call.apply store).2.path = "state.json" ∧
        (call.apply store).2.disk.directories = [] :=
    let changed : FileStore := { store with entries := Dictionary.put key value store.entries }
    ⟨@fst_flush_failing "" "state.json" changed (Or.inl rfl) (by decide) proper located
        (fits.congr bare) (draftFits.congr bare) atWrite atRename,
      (Setting.path_apply _ store).trans located,
      (directories_flush_failing atWrite atRename changed).trans bare⟩
  have spares : ∀ setting ∈ settings, setting.Spares "state.json" := by
    simp only [settings, List.forall_mem_cons]
    exact ⟨spared none none _ _, spared _ _ _ _, spared _ _ _ _, nofun⟩
  have first := outcome none none "a" "1" start rfl rfl
  have second := outcome (some full) none "b" "2" _ first.2.1 first.2.2
  have third := outcome none (some .busy) "a" "3" _ second.2.1 second.2.2
  have accepted : (next.apply (carryOut settings start).2).1 = .ok () := by
    simp only [settings, carryOut, List.foldl_cons, List.foldl_nil]
    exact (outcome none none "c" "4" _ third.2.1 third.2.2).1
  have made : (carryOut settings start).1 = calls := by
    simp only [settings, carryOut, List.foldl_cons, List.foldl_nil, List.nil_append,
      List.cons_append]
    rw [first.1, second.1, third.1]
    rfl
  rcases carried : carryOut settings start with ⟨done, store⟩
  rw [carried] at made accepted
  subst made
  obtain ⟨memory, file, further⟩ := gives_latest opened spares carried
  obtain ⟨-, -, agrees, -⟩ := further next (spared none none _ _)
  refine ⟨opened, spares, store, rfl, ?_, ?_, ?_, ?_, accepted, agrees accepted⟩
  · rw [memory]
    rfl
  · rw [file]
    rfl
  · rw [memory]
    rfl
  · rw [file]
    rfl

/-- A store does not always give what its file gives: a text whose file cannot be written stays. -/
theorem not_agrees_of_openAt :
    ¬ ∀ (disk : Disk) (path : String) (start : FileStore) (settings : List Setting),
      openAt disk path = .ok start → (∀ setting ∈ settings, setting.Spares path) →
      (carryOut settings start).2.Agrees := by
  intro always
  have keeps : Disk.Medium.faultless.Keeps ("missing/" ++ "state.json") :=
    keeps_failing (Or.inr ⟨"missing", rfl⟩) (by decide) (by decide) none fun _ => rfl
  have spares : ∀ setting ∈ [(⟨id, .faultless, "k", "v"⟩ : Setting)],
      setting.Spares "missing/state.json" :=
    List.forall_mem_singleton.2 ⟨fun _ => rfl, keeps⟩
  have agrees := always .empty "missing/state.json" _ _ rfl spares "k"
  exact absurd agrees (by decide)

end FileStore

end PuzzleShell

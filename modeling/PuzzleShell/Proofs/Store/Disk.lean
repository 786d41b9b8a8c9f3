import PuzzleShell.Proofs.Outcome
import PuzzleShell.Proofs.Text
import PuzzleShell.Store.File

/-!
# Two files side by side

A path leads to an entry of a directory: what stands in front of its last name leads to that
directory.  Writing one entry of a directory leaves the others as they are, and when a file that has
just been written is put into the place of another one, that one reads as what was written.
-/

namespace PuzzleShell

namespace Disk

variable {disk other : Disk} {directory place : Place} {front name draft text : String}
  {names : List String}

/-! ## Paths that lead to an entry -/

/-- What may stand in front of a name on a path: nothing, or a path that is closed. -/
def IsFront (front : String) : Prop :=
  front = "" ∨ ∃ before, front = before ++ "/"

structure IsEntry (name : String) : Prop where
  nonempty : name ≠ ""
  notHere : name ≠ "."
  notAbove : name ≠ ".."
  plain : '/' ∉ name.toList

instance (name : String) : Decidable (IsEntry name) :=
  decidable_of_iff (name ≠ "" ∧ name ≠ "." ∧ name ≠ ".." ∧ '/' ∉ name.toList)
    ⟨fun ⟨nonempty, notHere, notAbove, plain⟩ => ⟨nonempty, notHere, notAbove, plain⟩,
      fun entry => ⟨entry.nonempty, entry.notHere, entry.notAbove, entry.plain⟩⟩

theorem IsEntry.enter (entry : IsEntry name) (directory : Place) :
    directory.enter name = name :: directory := by
  rw [Place.enter, if_neg entry.notHere, if_neg entry.notAbove]

theorem pieces_of_plain (plain : '/' ∉ name.toList) : pieces name = [name] := by
  have single : name.toList.splitOn '/' = [name.toList] := List.splitOn_eq_singleton plain
  rw [pieces, single, List.map_singleton, String.ofList_toList]

theorem pieces_append_slash (before rest : String) :
    pieces (before ++ "/" ++ rest) = pieces before ++ pieces rest := by
  have cut : (before ++ "/" ++ rest).toList.splitOn '/' =
      before.toList.splitOn '/' ++ rest.toList.splitOn '/' := by
    rw [String.toList_append, String.toList_append, List.append_assoc]
    exact List.splitOn_append_cons_self _ _
  rw [pieces, cut, List.map_append, pieces, pieces]

theorem names_append (isFront : IsFront front) (entry : IsEntry name) :
    Disk.names (front ++ name) = Disk.names front ++ [name] := by
  have last : Disk.names name = [name] := by
    rw [Disk.names, pieces_of_plain entry.plain, List.filter_singleton]
    simp [entry.nonempty]
  rcases isFront with rfl | ⟨before, rfl⟩
  · rw [String.empty_append, last]
    rfl
  · have closed : Disk.names (before ++ "/") = Disk.names before := by
      have slash := pieces_append_slash before ""
      rw [String.append_empty] at slash
      rw [Disk.names, slash, List.filter_append, Disk.names]
      exact List.append_nil _
    rw [closed, Disk.names, pieces_append_slash, List.filter_append, ← Disk.names, ← Disk.names,
      last]

theorem origin_append (isFront : IsFront front) (entry : IsEntry name) :
    origin (front ++ name) = origin front := by
  rcases isFront with rfl | ⟨before, rfl⟩
  · rw [String.empty_append, origin, if_neg]
    · rfl
    · exact fun slash => entry.plain (List.mem_of_head? slash)
  · rw [origin, origin, String.toList_append, List.head?_append]
    cases started : (before ++ "/").toList with
    | nil => simp at started
    | cons first rest => rfl

/-! ## Following the way -/

def allow (path : String) : Except DiskFault Unit :=
  if path.toList.contains '\x00' then .error .nullInPath
  else if pathLimit ≤ path.utf8ByteSize then .error .nameTooLong
  else .ok ()

def walk (disk : Disk) (directory : Place) : List String → Except DiskFault Place
  | [] => .ok directory
  | name :: rest => do
      match ← disk.find directory name with
      | (place, some .directory) => disk.walk place rest
      | (_, some (.file _)) => .error .notDirectory
      | (_, none) => .error .noSuchFile

theorem follow_concat (disk : Disk) (directory : Place) (names : List String) (last : String) :
    disk.follow directory (names ++ [last]) = (disk.walk directory names).map (·, last) := by
  induction names generalizing directory with
  | nil => rfl
  | cons name rest ih =>
      obtain ⟨next, others, whole⟩ : ∃ next others, rest ++ [last] = next :: others :=
        List.exists_cons_of_ne_nil (by simp)
      rw [List.cons_append, whole, follow, walk, ← whole]
      rcases disk.find directory name with fault | ⟨place, entry⟩
      · rfl
      · rcases entry with _ | text | _
        · rfl
        · rfl
        · exact ih place

theorem route_append (isFront : IsFront front) (entry : IsEntry name) (disk : Disk) :
    disk.route (front ++ name) =
      (do allow (front ++ name)
          return ⟨← disk.walk (origin front) (Disk.names front), name, false⟩) := by
  have named := names_append isFront entry
  have proper : ¬ (Disk.names (front ++ name) = [] ∧ front ++ name ≠ "") := by simp [named]
  have open' : ¬ (front ++ name).toList.getLast? = some '/' := by
    have nonempty : name.toList ≠ [] := mt String.toList_eq_nil_iff.1 entry.nonempty
    rw [String.toList_append, List.getLast?_append_of_ne_nil _ nonempty]
    exact fun slash => entry.plain (List.mem_of_getLast? slash)
  unfold route allow
  dsimp only
  rw [if_neg proper, named, follow_concat, origin_append isFront entry, decide_eq_false open']
  split
  · rfl
  · split
    · rfl
    · cases disk.walk (origin front) (Disk.names front) <;> rfl

/-! ## Entries -/

def readEntry (disk : Disk) (directory : Place) (name : String) : Except DiskFault String := do
  match ← disk.find directory name with
  | (_, none) => .error .noSuchFile
  | (_, some .directory) => .error .isDirectory
  | (_, some (.file text)) => .ok text

theorem read_append (isFront : IsFront front) (entry : IsEntry name) (disk : Disk) :
    disk.read (front ++ name) =
      (do allow (front ++ name)
          disk.readEntry (← disk.walk (origin front) (Disk.names front)) name) := by
  rw [read, route_append isFront entry]
  cases allow (front ++ name) with
  | error fault => rfl
  | ok done =>
      cases disk.walk (origin front) (Disk.names front) <;> rfl

theorem isDots_of_isEntry (entry : IsEntry name) (directory : Place) (closed : Bool) :
    (Route.mk directory name closed).isDots = false := by
  simp [Route.isDots, entry.notHere, entry.notAbove]

theorem find_eq_ok_iff (entry : IsEntry name) {found : Place × Option Entry} :
    disk.find directory name = .ok found ↔
      name.utf8ByteSize ≤ nameLimit ∧
        found = (name :: directory, disk.entry? (name :: directory)) := by
  rw [find, entry.enter]
  split
  next long => exact iff_of_false nofun fun both => absurd both.1 (by omega)
  next short => rw [Except.ok.injEq, eq_comm, and_iff_right (by omega)]

/-- What writing an entry takes, and what comes of it. -/
theorem write_append_eq_ok_iff (isFront : IsFront front) (entry : IsEntry name) :
    disk.write (front ++ name) text = .ok other ↔
      allow (front ++ name) = .ok () ∧ name.utf8ByteSize ≤ nameLimit ∧
        ∃ directory, disk.walk (origin front) (Disk.names front) = .ok directory ∧
          disk.entry? (name :: directory) ≠ some .directory ∧
          other = disk.put (name :: directory) text := by
  rw [write, route_append isFront entry]
  simp only [bind_eq_ok_iff]
  constructor
  · rintro ⟨route, ⟨⟨⟩, admitted, directory, walked, ⟨⟩⟩, written⟩
    rw [isDots_of_isEntry entry, Bool.or_false, if_neg Bool.false_ne_true, bind_eq_ok_iff]
      at written
    obtain ⟨found, reached, written⟩ := written
    obtain ⟨short, rfl⟩ := (find_eq_ok_iff entry).1 reached
    refine ⟨admitted, short, directory, walked, ?_⟩
    dsimp only at written
    rcases standing : disk.entry? (name :: directory) with _ | known | _
    all_goals
      rw [standing] at written
      cases written
    · exact ⟨nofun, rfl⟩
    · exact ⟨nofun, rfl⟩
  · rintro ⟨admitted, short, directory, walked, free, rfl⟩
    refine ⟨⟨directory, name, false⟩, ⟨(), admitted, directory, walked, rfl⟩, ?_⟩
    rw [isDots_of_isEntry entry, Bool.or_false, if_neg Bool.false_ne_true, bind_eq_ok_iff]
    refine ⟨_, (find_eq_ok_iff entry).2 ⟨short, rfl⟩, ?_⟩
    rcases standing : disk.entry? (name :: directory) with _ | known | _
    · rfl
    · rfl
    · exact absurd standing free

/-- What putting one entry of a directory into the place of another takes, and what comes of it. -/
theorem rename_append_eq_ok_iff (isFront : IsFront front) (old : IsEntry draft)
    (new : IsEntry name) :
    disk.rename (front ++ draft) (front ++ name) = .ok other ↔
      (allow (front ++ draft) = .ok () ∧ allow (front ++ name) = .ok () ∧
        draft.utf8ByteSize ≤ nameLimit ∧ name.utf8ByteSize ≤ nameLimit) ∧
      ∃ directory text, disk.walk (origin front) (Disk.names front) = .ok directory ∧
        disk.entry? (draft :: directory) = some (.file text) ∧
        disk.entry? (name :: directory) ≠ some .directory ∧
        other = (disk.drop (draft :: directory)).put (name :: directory) text := by
  rw [rename, route_append isFront old, route_append isFront new]
  simp only [bind_eq_ok_iff]
  constructor
  · rintro ⟨_, ⟨⟨⟩, admitted, directory, walked, ⟨⟩⟩, _, ⟨⟨⟩, too, again, same, ⟨⟩⟩, renamed⟩
    cases walked.symm.trans same
    rw [isDots_of_isEntry old, isDots_of_isEntry new, Bool.or_false, if_neg Bool.false_ne_true]
      at renamed
    simp only [bind_eq_ok_iff] at renamed
    obtain ⟨moved, reached, replaced, landed, renamed⟩ := renamed
    obtain ⟨short, rfl⟩ := (find_eq_ok_iff old).1 reached
    obtain ⟨brief, rfl⟩ := (find_eq_ok_iff new).1 landed
    refine ⟨⟨admitted, too, short, brief⟩, directory, ?_⟩
    rcases standing : disk.entry? (draft :: directory) with _ | text | _
    · rw [standing] at renamed
      cases renamed
    · rw [standing] at renamed
      dsimp only at renamed
      rw [if_neg Bool.false_ne_true] at renamed
      split at renamed
      · cases renamed
      next free =>
        cases renamed
        exact ⟨text, walked, rfl, free, rfl⟩
    · rw [standing] at renamed
      cases renamed
  · rintro ⟨⟨admitted, too, short, brief⟩, directory, text, walked, standing, free, rfl⟩
    refine ⟨⟨directory, draft, false⟩, ⟨(), admitted, directory, walked, rfl⟩,
      ⟨directory, name, false⟩, ⟨(), too, directory, walked, rfl⟩, ?_⟩
    rw [isDots_of_isEntry old, isDots_of_isEntry new, Bool.or_false, if_neg Bool.false_ne_true]
    simp only [bind_eq_ok_iff]
    refine ⟨_, (find_eq_ok_iff old).2 ⟨short, rfl⟩, _, (find_eq_ok_iff new).2 ⟨brief, rfl⟩, ?_⟩
    rw [standing]
    dsimp only
    rw [if_neg Bool.false_ne_true, if_neg free]

/-! ## What is there afterwards -/

theorem entry?_eq_directory_iff :
    disk.entry? place = some .directory ↔ disk.hasDirectory place = true := by
  rw [ entry?]
  split
  next inside => exact iff_of_true rfl inside
  next outside => exact iff_of_false (by simp) outside

/-- A way through directories stays as long as they do. -/
theorem walk_of_ok (kept : other.directories = disk.directories)
    (walked : disk.walk directory names = .ok place) : other.walk directory names = .ok place := by
  induction names generalizing directory with
  | nil => exact walked
  | cons name rest ih =>
      rw [walk, bind_eq_ok_iff] at walked ⊢
      obtain ⟨⟨reached, entry⟩, found, onwards⟩ := walked
      rw [find] at found ⊢
      split at found
      · cases found
      next short =>
        cases found
        cases standing : disk.entry? (directory.enter name) with
        | none =>
            rw [standing] at onwards
            cases onwards
        | some kind =>
            rw [standing] at onwards
            cases kind with
            | file text => cases onwards
            | directory =>
                have still : other.entry? (directory.enter name) = some .directory := by
                  rw [entry?_eq_directory_iff] at standing ⊢
                  rwa [hasDirectory, kept]
                refine ⟨_, if_neg short, ?_⟩
                rw [still]
                exact ih onwards

theorem lookup_filter_of_ne {files : List (Place × String)} (different : place ≠ directory) :
    (files.filter (·.1 ≠ directory)).lookup place = files.lookup place := by
  induction files with
  | nil => rfl
  | cons file rest ih =>
      obtain ⟨known, text⟩ := file
      by_cases same : known = directory
      · have other : (place == known) = false := beq_eq_false_iff_ne.2 (same ▸ different)
        rw [List.filter_cons_of_neg (by simpa using same), ih, List.lookup_cons, other]
      · rw [List.filter_cons_of_pos (by simpa using same), List.lookup_cons, List.lookup_cons, ih]

theorem entry?_put_of_ne (different : place ≠ directory) (disk : Disk) (text : String) :
    Disk.entry? (disk.put directory text) place = disk.entry? place := by
  have other : (place == directory) = false := beq_eq_false_iff_ne.2 different
  rw [ entry?, entry?, put, List.lookup_cons, other, lookup_filter_of_ne different]
  rfl

theorem entry?_put_self (free : disk.hasDirectory place = false) (text : String) :
    Disk.entry? (disk.put place text) place = some (.file text) := by
  rw [ entry?, if_neg (by simpa [hasDirectory, put] using free), put, List.lookup_cons,
    beq_self_eq_true]
  rfl

/-- What an entry reads as is told by what there is. -/
theorem readEntry_congr (entry : IsEntry name)
    (same : other.entry? (name :: directory) = disk.entry? (name :: directory)) :
    other.readEntry directory name = disk.readEntry directory name := by
  rw [readEntry, readEntry, find, find, entry.enter, same]

theorem readEntry_of_file (entry : IsEntry name) (short : name.utf8ByteSize ≤ nameLimit)
    (standing : disk.entry? (name :: directory) = some (.file text)) :
    disk.readEntry directory name = .ok text := by
  have found : disk.find directory name = .ok (name :: directory, some (.file text)) :=
    (find_eq_ok_iff entry).2 ⟨short, by rw [standing]⟩
  rw [readEntry, found]
  rfl

theorem hasDirectory_eq_false_iff :
    disk.hasDirectory place = false ↔ disk.entry? place ≠ some .directory :=
  Bool.eq_false_iff.trans (not_congr entry?_eq_directory_iff.symm)

/-- Writing one entry of a directory leaves what the others read as. -/
theorem read_of_write_beside (isFront : IsFront front) (entry : IsEntry name)
    (another : IsEntry draft) (different : name ≠ draft)
    (written : disk.write (front ++ draft) text = .ok other) :
    other.read (front ++ name) = disk.read (front ++ name) := by
  obtain ⟨-, -, directory, walked, -, rfl⟩ := (write_append_eq_ok_iff isFront another).1 written
  have apart : name :: directory ≠ draft :: directory := by simpa using different
  have still := @walk_of_ok disk (disk.put (draft :: directory) text) _ _ _ rfl walked
  rw [read_append isFront entry, read_append isFront entry, walked, still]
  refine bind_congr fun _ => ?_
  exact readEntry_congr entry (entry?_put_of_ne apart disk text)

/-- What is put into place once it has been written reads as what was written. -/
theorem read_of_rename (isFront : IsFront front) (entry : IsEntry name) (another : IsEntry draft)
    {between : Disk} (written : disk.write (front ++ draft) text = .ok between)
    (renamed : between.rename (front ++ draft) (front ++ name) = .ok other) :
    other.read (front ++ name) = .ok text := by
  obtain ⟨-, -, directory, walked, free, rfl⟩ := (write_append_eq_ok_iff isFront another).1 written
  obtain ⟨⟨-, admitted, -, short⟩, reached, moved, again, standing, vacant, rfl⟩ :=
    (rename_append_eq_ok_iff isFront another entry).1 renamed
  have still := @walk_of_ok disk (disk.put (draft :: directory) text) _ _ _ rfl walked
  cases still.symm.trans again
  rw [entry?_put_self (hasDirectory_eq_false_iff.2 free)] at standing
  cases standing
  let dropped := (disk.put (draft :: directory) text).drop (draft :: directory)
  have open' : (disk.put (draft :: directory) text).hasDirectory (name :: directory) = false :=
    hasDirectory_eq_false_iff.2 vacant
  have landed := @walk_of_ok disk (dropped.put (name :: directory) text) _ _ _ rfl walked
  rw [read_append isFront entry, admitted, landed]
  exact readEntry_of_file entry short (@entry?_put_self dropped _ open' text)

/-! ## Room for a file -/

/-- Whether a path leads to an entry that a file can be written to. -/
structure HasRoom (disk : Disk) (front name : String) : Prop where
  admitted : allow (front ++ name) = .ok ()
  short : name.utf8ByteSize ≤ nameLimit
  vacant : ∃ directory, disk.walk (origin front) (Disk.names front) = .ok directory ∧
    disk.hasDirectory (name :: directory) = false

theorem hasRoom_of_write (isFront : IsFront front) (entry : IsEntry name)
    (written : disk.write (front ++ name) text = .ok other) : disk.HasRoom front name := by
  obtain ⟨admitted, short, directory, walked, free, -⟩ :=
    (write_append_eq_ok_iff isFront entry).1 written
  exact ⟨admitted, short, directory, walked, hasDirectory_eq_false_iff.2 free⟩

/-- Room for a file is a matter of the directories. -/
theorem HasRoom.congr (room : disk.HasRoom front name)
    (kept : other.directories = disk.directories) : other.HasRoom front name := by
  obtain ⟨directory, walked, free⟩ := room.vacant
  refine ⟨room.admitted, room.short, directory, walk_of_ok kept walked, ?_⟩
  rwa [hasDirectory, kept]

theorem HasRoom.exists_write (room : disk.HasRoom front name) (isFront : IsFront front)
    (entry : IsEntry name) (text : String) :
    ∃ after, disk.write (front ++ name) text = .ok after := by
  obtain ⟨directory, walked, free⟩ := room.vacant
  exact ⟨_, (write_append_eq_ok_iff isFront entry).2
    ⟨room.admitted, room.short, directory, walked, hasDirectory_eq_false_iff.1 free, rfl⟩⟩

/-- A file that has just been written can be put into any place beside it that has room. -/
theorem HasRoom.exists_rename (room : disk.HasRoom front name) (isFront : IsFront front)
    (entry : IsEntry name) (another : IsEntry draft)
    (written : disk.write (front ++ draft) text = .ok other) :
    ∃ after, other.rename (front ++ draft) (front ++ name) = .ok after := by
  obtain ⟨admitted, short, directory, walked, free, rfl⟩ :=
    (write_append_eq_ok_iff isFront another).1 written
  obtain ⟨reached, again, open'⟩ := room.vacant
  cases walked.symm.trans again
  let between := disk.put (draft :: directory) text
  have still := @walk_of_ok disk between _ _ _ rfl walked
  have vacant := (@hasDirectory_eq_false_iff between (name :: directory)).1 open'
  exact ⟨_, (rename_append_eq_ok_iff isFront another entry).2
    ⟨⟨admitted, room.admitted, short, room.short⟩, directory, text, still,
      entry?_put_self (hasDirectory_eq_false_iff.2 free) text, vacant, rfl⟩⟩

theorem directories_write {path : String} (written : disk.write path text = .ok other) :
    other.directories = disk.directories := by
  rw [write, bind_eq_ok_iff] at written
  obtain ⟨route, -, written⟩ := written
  split at written
  · cases written
  · obtain ⟨⟨place, entry⟩, -, written⟩ := bind_eq_ok_iff.1 written
    split at written <;> cases written
    rfl

theorem directories_rename {source target : String}
    (renamed : disk.rename source target = .ok other) : other.directories = disk.directories := by
  rw [rename, bind_eq_ok_iff] at renamed
  obtain ⟨old, -, renamed⟩ := renamed
  obtain ⟨new, -, renamed⟩ := bind_eq_ok_iff.1 renamed
  split at renamed
  · cases renamed
  · obtain ⟨⟨oldPlace, moved⟩, -, renamed⟩ := bind_eq_ok_iff.1 renamed
    obtain ⟨⟨newPlace, replaced⟩, -, renamed⟩ := bind_eq_ok_iff.1 renamed
    dsimp only at renamed
    split at renamed
    · cases renamed
    · cases renamed
    · split at renamed
      · cases renamed
      · split at renamed <;> cases renamed
        rfl

end Disk

namespace FileStore

open Disk

variable {front name : String}

/-! ## The draft -/

theorem intercalate_nil (pieces : List (List Char)) : [].intercalate pieces = pieces.flatten := by
  induction pieces with
  | nil => rfl
  | cons piece rest ih =>
      cases rest with
      | nil => simp
      | cons next others =>
          rw [List.intercalate_cons_cons, ih, List.append_nil]
          rfl

theorem flatten_map_append (separator : Char) {pieces : List (List Char)} (nonempty : pieces ≠ []) :
    (pieces.map (· ++ [separator])).flatten = [separator].intercalate pieces ++ [separator] := by
  induction pieces with
  | nil => exact absurd rfl nonempty
  | cons piece rest ih =>
      cases rest with
      | nil => simp
      | cons next others =>
          rw [List.map_cons, List.flatten_cons, ih (List.cons_ne_nil _ _),
            List.intercalate_cons_cons, List.append_assoc, List.append_assoc, List.append_assoc]

/-- Pieces that are closed again spell the path that they were cut from. -/
theorem intercalate_closed (before : String) :
    "".intercalate ((pieces before).map (· ++ "/")) = before ++ "/" := by
  have whole := flatten_map_append '/' (List.splitOn_ne_nil '/' before.toList)
  rw [List.intercalate_splitOn] at whole
  rw [← String.toList_inj, String.toList_intercalate, pieces, String.toList_empty,
    intercalate_nil]
  simpa [List.map_map, Function.comp_def] using whole

/-- The pieces in front of the last name, closed again, are what stands in front of it. -/
theorem exists_pieces_append (isFront : IsFront front) (plain : '/' ∉ name.toList) :
    ∃ before, pieces (front ++ name) = before ++ [name] ∧
      "".intercalate (before.map (· ++ "/")) = front := by
  rcases isFront with rfl | ⟨before, rfl⟩
  · exact ⟨[], by rw [String.empty_append, pieces_of_plain plain, List.nil_append], rfl⟩
  · exact ⟨pieces before, by rw [pieces_append_slash, pieces_of_plain plain],
      intercalate_closed before⟩

theorem mem_of_mem_stem {c : Char} (member : c ∈ (stem name).toList) : c ∈ name.toList := by
  unfold stem at member
  split at member
  next before cut =>
    split at member
    · exact member
    · rw [String.toList_ofList, List.mem_reverse] at member
      have suffix := List.dropWhile_suffix (l := name.toList.reverse) (· ≠ '.')
      rw [cut] at suffix
      exact List.mem_reverse.1 (suffix.subset (List.mem_cons_of_mem _ member))
  · exact member

/-- The draft of a file stands beside it, under its name with another extension. -/
theorem draftPath_append (isFront : IsFront front) (entry : IsEntry name)
    (proper : stem name ≠ ".") : draftPath (front ++ name) = front ++ (stem name ++ ".tmp") := by
  obtain ⟨before, cut, whole⟩ := exists_pieces_append isFront entry.plain
  have counts : isIdle name = false := by simp [isIdle, entry.nonempty, entry.notHere]
  have last : (pieces (front ++ name)).reverse.dropWhile isIdle = name :: before.reverse := by
    rw [cut, List.reverse_concat, List.dropWhile_cons_of_neg (by simp [counts])]
  unfold draftPath
  dsimp only
  rw [last]
  dsimp only
  rw [if_neg entry.notAbove, if_neg fun both => proper both.1, List.reverse_reverse, whole,
    String.append_assoc]

theorem isEntry_draft (entry : IsEntry name) : IsEntry (stem name ++ ".tmp") := by
  have long : 4 ≤ (stem name ++ ".tmp").length := by
    rw [String.length_append]
    exact Nat.le_add_left 4 _
  have other (short : String) (few : ¬ 4 ≤ short.length) : stem name ++ ".tmp" ≠ short :=
    fun same => few (same ▸ long)
  refine ⟨other "" (by decide), other "." (by decide), other ".." (by decide), fun slash => ?_⟩
  rw [String.toList_append, List.mem_append] at slash
  rcases slash with within | extension
  · exact entry.plain (mem_of_mem_stem within)
  · simp at extension

end FileStore

end PuzzleShell

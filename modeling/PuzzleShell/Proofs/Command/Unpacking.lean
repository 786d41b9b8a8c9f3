import PuzzleShell.Proofs.Command.Canonical
import PuzzleShell.Proofs.Tree.Locality

/-!
# Unpacking an archive

Whether an archive can be unpacked is decided by how its directory looks beforehand: every name in
the archive must be free, with the directory open to the user, or stand for a file that the user may
write.  What is written on the way changes nothing about that, for a file that was made by the user
may be written by the user again.  So nothing is left half done, and of several entries under one
name the last one stays.
-/

namespace PuzzleShell

namespace Directory

variable {directory : Directory} {user name other : String} {content : Content}

def accessFor (directory : Directory) (user name : String) : Access :=
  ((directory.get? name).map Node.access).getD (.ownedBy .newFile user)

def Admits (directory : Directory) (user name : String) : Prop :=
  match directory.get? name with
  | some (.directory _ _) => False
  | some (.file file) => file.access.permits user .write = true
  | none => directory.access.permits user .write = true

def wrote (directory : Directory) (user name : String) (content : Content) : Directory :=
  directory.put name (.file ⟨directory.accessFor user name, content, none⟩)

def filled (user : String) (entries : List (String × Content)) (directory : Directory) :
    Directory :=
  entries.foldl (fun directory entry => directory.wrote user entry.1 entry.2) directory

theorem permits_ownedBy_newFile (user : String) :
    (Access.ownedBy .newFile user).permits user .write = true := by
  simp [Access.permits, Access.party, Access.ownedBy, Mode.newFile, Mode.allows, Mode.triad,
    Triad.readWrite, Triad.grants]

/-- What a user wrote under a name, the user may write again. -/
theorem permits_accessFor (admitted : directory.Admits user name) :
    (directory.accessFor user name).permits user .write = true := by
  unfold Admits at admitted
  unfold accessFor
  cases held : directory.get? name with
  | none => exact permits_ownedBy_newFile user
  | some node =>
      rw [held] at admitted
      cases node with
      | file file => exact admitted
      | directory access entries => exact admitted.elim

theorem get?_wrote_self (directory : Directory) (user name : String) (content : Content) :
    (directory.wrote user name content).get? name =
      some (.file ⟨directory.accessFor user name, content, none⟩) :=
  get?_put_self ..

theorem get?_wrote_of_ne (different : other ≠ name) (directory : Directory) (user : String)
    (content : Content) :
    (directory.wrote user name content).get? other = directory.get? other :=
  get?_put_of_ne different ..

/-- A file that is written keeps its permissions and owners, or has those of a new one. -/
theorem accessFor_wrote (directory : Directory) (user name other : String) (content : Content) :
    (directory.wrote user name content).accessFor user other = directory.accessFor user other := by
  by_cases same : other = name
  · subst same
    rw [accessFor, get?_wrote_self]
    rfl
  · rw [accessFor, get?_wrote_of_ne same, ← accessFor]

/-- A file that is written stands in nobody's way. -/
theorem admits_wrote (admitted : directory.Admits user name) :
    (directory.wrote user name content).Admits user other ↔ directory.Admits user other := by
  by_cases same : other = name
  · subst same
    rw [Admits, get?_wrote_self]
    exact ⟨fun _ => admitted, fun _ => permits_accessFor admitted⟩
  · rw [Admits, get?_wrote_of_ne same, Admits]
    rfl

theorem accessFor_filled (directory : Directory) (user name : String)
    (entries : List (String × Content)) :
    (directory.filled user entries).accessFor user name = directory.accessFor user name := by
  induction entries generalizing directory with
  | nil => rfl
  | cons entry rest ih => exact (ih _).trans (accessFor_wrote ..)

theorem get?_filled_of_not_mem {entries : List (String × Content)}
    (absent : name ∉ Roster.names entries) (directory : Directory) (user : String) :
    (directory.filled user entries).get? name = directory.get? name := by
  induction entries generalizing directory with
  | nil => rfl
  | cons entry rest ih =>
      obtain ⟨different, later⟩ := not_or.1 (mt List.mem_cons.2 absent)
      exact (ih later _).trans (get?_wrote_of_ne different ..)

theorem admits_filled {entries : List (String × Content)}
    (admits : ∀ entry ∈ entries, directory.Admits user entry.1) :
    (directory.filled user entries).Admits user name ↔ directory.Admits user name := by
  induction entries generalizing directory with
  | nil => rfl
  | cons entry rest ih =>
      obtain ⟨admitted, later⟩ := List.forall_mem_cons.1 admits
      refine (ih fun other member => ?_).trans (admits_wrote admitted)
      exact (admits_wrote admitted).2 (later other member)

/-- Of several files that were written under a name, the last one stays. -/
theorem get?_filled (directory : Directory) (user : String)
    {earlier later : List (String × Content)} (last : name ∉ Roster.names later) :
    (directory.filled user (earlier ++ (name, content) :: later)).get? name =
      some (.file ⟨directory.accessFor user name, content, none⟩) := by
  have split : directory.filled user (earlier ++ (name, content) :: later) =
      ((directory.filled user earlier).wrote user name content).filled user later := by
    rw [filled, List.foldl_append]
    rfl
  rw [split, get?_filled_of_not_mem last, get?_wrote_self, accessFor_filled]

end Directory

namespace Command

variable {tree after : Tree} {destination name user : String} {content : Content}
  {directory : Directory} {entries : List (String × Content)}

/-- A file is written into a directory just if the directory admits it. -/
theorem write_join_eq_ok_iff (canonical : Path.Canonical destination)
    (named : Path.isName name = true) :
    tree.write (Path.join destination name) content user = (.ok (), after) ↔
      ∃ directory, tree.directory destination = .ok directory ∧ directory.Admits user name ∧
        after = tree.changeDirectory destination
          (·.put name (.file ⟨directory.accessFor user name, content, none⟩)) := by
  rw [Tree.write, Tree.carryOut_eq_ok_iff]
  simp only [bind_eq_ok_iff, Tree.place_eq_ok_iff, canonical.split?_join named, Option.some.injEq,
    exists_eq_left']
  refine exists_congr fun directory => and_congr_right fun found => ?_
  unfold Directory.Admits Directory.accessFor
  rcases directory.get? name with _ | file | ⟨access, inner⟩ <;>
    simp [-bind_pure_comp, bind_eq_ok_iff, pure, Except.pure, Node.access, Node.newFile,
      @eq_comm _ after]

/-- What writing a file needs of the directory, and what it makes of it. -/
theorem write_join_eq_ok (canonical : Path.Canonical destination)
    (named : Path.isName name = true) (found : tree.directory destination = .ok directory)
    (written : tree.write (Path.join destination name) content user = (.ok (), after)) :
    directory.Admits user name ∧
      after.directory destination = .ok (directory.wrote user name content) := by
  obtain ⟨same, again, admitted, rfl⟩ := (write_join_eq_ok_iff canonical named).1 written
  cases found.symm.trans again
  exact ⟨admitted, Tree.directory_changeDirectory found _⟩

theorem exists_write_join (canonical : Path.Canonical destination)
    (named : Path.isName name = true) (found : tree.directory destination = .ok directory)
    (admitted : directory.Admits user name) (content : Content) :
    ∃ after, tree.write (Path.join destination name) content user = (.ok (), after) ∧
      after.directory destination = .ok (directory.wrote user name content) :=
  ⟨_, (write_join_eq_ok_iff canonical named).2 ⟨directory, found, admitted, rfl⟩,
    Tree.directory_changeDirectory found _⟩

theorem extract_cons_eq_ok_iff :
    extract destination user ((name, content) :: entries) tree = .ok after ↔
      ∃ between, tree.write (Path.join destination name) content user = (.ok (), between) ∧
        extract destination user entries between = .ok after := by
  rw [extract]
  rcases tree.write (Path.join destination name) content user with ⟨_ | _, between⟩ <;> simp

/-- What was extracted has filled the directory, and all of it was admitted beforehand. -/
theorem extract_eq_ok (canonical : Path.Canonical destination)
    (named : Path.Valid (Roster.names entries))
    (found : tree.directory destination = .ok directory)
    (extracted : extract destination user entries tree = .ok after) :
    (∀ entry ∈ entries, directory.Admits user entry.1) ∧
      after.directory destination = .ok (directory.filled user entries) ∧
      Tree.ChangedAmong (entries.map fun entry => Path.join destination entry.1) tree after := by
  induction entries generalizing tree directory with
  | nil =>
      cases extracted
      exact ⟨fun _ member => (List.not_mem_nil member).elim, found, .refl⟩
  | cons entry rest ih =>
      obtain ⟨name, content⟩ := entry
      obtain ⟨valid, others⟩ := List.forall_mem_cons.1 named
      obtain ⟨between, written, later⟩ := extract_cons_eq_ok_iff.1 extracted
      obtain ⟨admitted, filled⟩ := write_join_eq_ok canonical valid found written
      have changed := Tree.write_changed (canonical.join valid).1 tree content user
      rw [written] at changed
      obtain ⟨admits, whole, more⟩ := ih others filled later
      refine ⟨List.forall_mem_cons.2 ⟨admitted, fun entry member => ?_⟩, whole, ?_⟩
      · exact (Directory.admits_wrote admitted).1 (admits entry member)
      · exact (changed.mono (by simp)).trans (more.mono (by simp))

/-- What is admitted beforehand can be extracted. -/
theorem exists_extract (canonical : Path.Canonical destination)
    (named : Path.Valid (Roster.names entries))
    (found : tree.directory destination = .ok directory)
    (admits : ∀ entry ∈ entries, directory.Admits user entry.1) :
    ∃ after, extract destination user entries tree = .ok after := by
  induction entries generalizing tree directory with
  | nil => exact ⟨tree, rfl⟩
  | cons entry rest ih =>
      obtain ⟨name, content⟩ := entry
      obtain ⟨valid, others⟩ := List.forall_mem_cons.1 named
      obtain ⟨admitted, later⟩ := List.forall_mem_cons.1 admits
      obtain ⟨between, written, filled⟩ :=
        exists_write_join canonical valid found admitted content
      obtain ⟨after, extracted⟩ := ih others filled
        fun entry member => (Directory.admits_wrote admitted).2 (later entry member)
      exact ⟨after, extract_cons_eq_ok_iff.2 ⟨between, written, extracted⟩⟩

/-- Nothing is extracted but into a directory. -/
theorem exists_directory_of_extract (canonical : Path.Canonical destination)
    (named : Path.Valid (Roster.names entries)) (nonempty : entries ≠ [])
    (extracted : extract destination user entries tree = .ok after) :
    ∃ directory, tree.directory destination = .ok directory := by
  obtain ⟨⟨name, content⟩, rest, rfl⟩ := List.exists_cons_of_ne_nil nonempty
  obtain ⟨between, written, later⟩ := extract_cons_eq_ok_iff.1 extracted
  obtain ⟨directory, found, done⟩ :=
    (write_join_eq_ok_iff canonical (List.forall_mem_cons.1 named).1).1 written
  exact ⟨directory, found⟩

end Command

namespace Tree

variable {tree after : Tree} {destination user path : String} {directory : Directory}
  {entries : List (String × Content)} {entry : String × Content}

/--
Whether a user may unpack entries into a directory: it is one, no directory is in the way, the user
may write the files that are there, and the directory itself if anything is not there yet.
-/
structure Accepts (tree : Tree) (destination user : String)
    (entries : List (String × Content)) : Prop where
  isDirectory : tree.hasDirectory destination = true
  noDirectory : ∀ entry ∈ entries, tree.hasDirectory (Path.join destination entry.1) = false
  overwrites : ∀ entry ∈ entries, ∀ file,
    tree.lookup (Path.join destination entry.1) = .ok (.file file) →
      file.access.permits user .write = true
  enters : ∀ entry ∈ entries, tree.has (Path.join destination entry.1) = false →
    ∀ node, tree.lookup destination = .ok node → node.access.permits user .write = true

/-- The permissions and owners of what a user writes at a path: those it has, or a new file's. -/
def accessFor (tree : Tree) (user path : String) : Access :=
  ((tree.lookup path).toOption.map Node.access).getD (.ownedBy .newFile user)

/--
What unpacking entries into a directory leaves: under each name the last entry of that name, and
everything else as it was, with its permissions and owners, its content and its other entries.
-/
structure Unpacked (tree : Tree) (destination user : String) (entries : List (String × Content))
    (after : Tree) : Prop where
  written : ∀ earlier name content later, entries = earlier ++ (name, content) :: later →
    name ∉ Roster.names later →
      after.lookup (Path.join destination name) =
        .ok (.file ⟨tree.accessFor user (Path.join destination name), content, none⟩)
  others : ∀ path, Path.Canonical path →
    (∀ entry ∈ entries, path ≠ Path.join destination entry.1) → ∀ face,
      after.view (entries.map fun entry => Path.join destination entry.1) path = .ok face ↔
        tree.view (entries.map fun entry => Path.join destination entry.1) path = .ok face

/-- What an entry of a directory that was found leads to. -/
theorem at?_join (canonical : Path.Canonical destination)
    (found : tree.directory destination = .ok directory) {name : String}
    (named : Path.isName name = true) :
    tree.root.at? (Path.segments (Path.join destination name)) = directory.get? name :=
  at?_of_split? (canonical.join named).1 (canonical.split?_join named) found

theorem accessFor_join (canonical : Path.Canonical destination)
    (found : tree.directory destination = .ok directory) {name : String}
    (named : Path.isName name = true) (user : String) :
    tree.accessFor user (Path.join destination name) = directory.accessFor user name := by
  rw [accessFor, toOption_lookup, at?_join canonical found named]
  rfl

theorem hasDirectory_eq (tree : Tree) (path : String) :
    tree.hasDirectory path =
      ((tree.root.at? (Path.segments path)).any Node.isDirectory) := by
  rw [hasDirectory, ← toOption_lookup]
  rcases tree.lookup path with fault | file | ⟨access, entries⟩ <;> rfl

theorem hasDirectory_iff {path : String} :
    tree.hasDirectory path = true ↔ ∃ directory, tree.directory path = .ok directory := by
  simp only [hasDirectory_eq, directory_eq_ok_iff, Option.any_eq_true]
  constructor
  · rintro ⟨_ | ⟨access, entries⟩, standing, shape⟩
    · cases shape
    · exact ⟨⟨access, entries⟩, standing⟩
  · rintro ⟨directory, standing⟩
    exact ⟨directory.toNode, standing, rfl⟩

/-- What it takes to write a file under a name, told from what its path leads to. -/
theorem admits_iff (canonical : Path.Canonical destination)
    (found : tree.directory destination = .ok directory) {name : String}
    (named : Path.isName name = true) :
    directory.Admits user name ↔
      tree.hasDirectory (Path.join destination name) = false ∧
      (∀ file, tree.lookup (Path.join destination name) = .ok (.file file) →
        file.access.permits user .write = true) ∧
      (tree.has (Path.join destination name) = false →
        directory.access.permits user .write = true) := by
  simp only [hasDirectory_eq, has_eq_isSome, lookup_eq_ok_iff, at?_join canonical found named]
  unfold Directory.Admits
  rcases directory.get? name with _ | file | ⟨access, inner⟩ <;> simp [Node.isDirectory]

/-- The conditions on what the names lead to are conditions on the one directory. -/
theorem accepts_iff (canonical : Path.Canonical destination)
    (named : Path.Valid (Roster.names entries)) :
    tree.Accepts destination user entries ↔
      ∃ directory, tree.directory destination = .ok directory ∧
        ∀ entry ∈ entries, directory.Admits user entry.1 := by
  have valid (entry) (member : entry ∈ entries) : Path.isName entry.1 = true :=
    named entry.1 (List.mem_map_of_mem member)
  constructor
  · intro accepts
    obtain ⟨directory, found⟩ := hasDirectory_iff.1 accepts.isDirectory
    have standing := lookup_eq_ok_iff.2 (directory_eq_ok_iff.1 found)
    refine ⟨directory, found, fun entry member => ?_⟩
    rw [admits_iff canonical found (valid entry member)]
    exact ⟨accepts.noDirectory entry member, accepts.overwrites entry member,
      fun missing => accepts.enters entry member missing _ standing⟩
  · rintro ⟨directory, found, admits⟩
    have standing := lookup_eq_ok_iff.2 (directory_eq_ok_iff.1 found)
    have each (entry) (member : entry ∈ entries) :=
      (admits_iff canonical found (valid entry member)).1 (admits entry member)
    refine ⟨hasDirectory_iff.2 ⟨directory, found⟩, fun entry member => (each entry member).1,
      fun entry member => (each entry member).2.1, fun entry member missing node looked => ?_⟩
    cases standing.symm.trans looked
    exact (each entry member).2.2 missing

/-- Nothing stands below a name that a user may write a file under. -/
theorem at?_below_eq_none (canonical : Path.Canonical destination)
    (found : tree.directory destination = .ok directory) {name : String}
    (named : Path.isName name = true) (admitted : directory.Admits user name) (first : String)
    (rest : List String) :
    tree.root.at? (Path.segments (Path.join destination name) ++ first :: rest) = none := by
  rw [Node.at?_append, at?_join canonical found named]
  unfold Directory.Admits at admitted
  rcases held : directory.get? name with _ | file | ⟨access, inner⟩
  · rfl
  · rfl
  · rw [held] at admitted
    exact admitted.elim

theorem view_ne_ok {targets : List String} {face : Node.Face}
    (nothing : tree.root.at? (Path.segments path) = none) : tree.view targets path ≠ .ok face := by
  rw [view]
  cases looked : tree.lookup path with
  | error fault =>
      intro seen
      cases seen
  | ok node =>
      rw [lookup_eq_ok_iff, nothing] at looked
      cases looked

/-- What was extracted is there, and nothing else has changed. -/
theorem unpacked_of_extract (canonical : Path.Canonical destination)
    (named : Path.Valid (Roster.names entries))
    (found : tree.directory destination = .ok directory)
    (extracted : Command.extract destination user entries tree = .ok after) :
    tree.Unpacked destination user entries after := by
  obtain ⟨admits, filled, changed⟩ := Command.extract_eq_ok canonical named found extracted
  refine ⟨fun earlier name content later split last => ?_, fun path reached unlike face => ?_⟩
  · have valid : Path.isName name = true := named name (by rw [split, Roster.names]; simp)
    rw [lookup_eq_ok_iff, at?_join canonical filled valid, split, Directory.get?_filled _ _ last,
      accessFor_join canonical found valid]
  by_cases below : ∃ entry ∈ entries, Path.LeadsThrough path (Path.join destination entry.1)
  · -- A path that leads on from an entry leads nowhere, neither before nor afterwards.
    obtain ⟨entry, member, rest, goesOn⟩ := below
    have valid : Path.isName entry.1 = true := named entry.1 (List.mem_map_of_mem member)
    cases rest with
    | nil =>
        rw [List.append_nil] at goesOn
        exact absurd (reached.eq_of_segments (canonical.join valid).1 goesOn.symm)
          (unlike entry member)
    | cons first rest =>
        have admitted := admits entry member
        have before := at?_below_eq_none canonical found valid admitted first rest
        have afterwards := at?_below_eq_none canonical filled valid
          ((Directory.admits_filled admits).2 admitted) first rest
        rw [goesOn] at before afterwards
        exact iff_of_false (view_ne_ok afterwards) (view_ne_ok before)
  · have elsewhere : ∀ target ∈ entries.map fun entry => Path.join destination entry.1,
        ¬ Path.LeadsThrough path target := by
      intro target member
      obtain ⟨entry, known, rfl⟩ := List.mem_map.1 member
      exact fun through => below ⟨entry, known, through⟩
    rw [changed.view_eq elsewhere]

end Tree

namespace Command

open PuzzleShell.Action

variable {backend : Backend} {words operands : List String} {directory : Option String}
  {archive : String} {turn after : Turn} {content : Content} {entries : List (String × Content)}
  {outcome : Except Failure Output}

theorem run_unzip (options : Options.withValue "-d" words = some (operands, directory))
    (last : operands.getLast? = some archive)
    (held : turn.tree.content (turn.path archive) turn.session.user = .ok content)
    (packed : archiveEntries? content = some entries) :
    (unzip.run backend words).run.run turn =
      match extract (turn.path (directory.getD ".")) turn.session.user entries turn.tree with
      | .ok tree =>
          (.ok (.text (Text.unlines (("Archive:  " ++ turn.path archive) :: entries.map fun entry =>
            "  inflating: " ++ Path.join (turn.path (directory.getD ".")) entry.1))),
            { turn with tree := tree })
      | .error fault => (.error (.fault fault), turn) := by
  rw [Turn.path] at held
  simp only [unzip, options, last, run_bind, run_resolve, run_get, run_ofExcept, held, ended,
    packed]
  rw [← Turn.path]
  cases extract (turn.path (directory.getD ".")) turn.session.user entries turn.tree <;> rfl

/-- The names in a packed archive are valid if those that a structured one was given are. -/
theorem valid_archiveEntries? (packed : archiveEntries? content = some entries)
    (named : ∀ given, content = .archive given → Path.Valid (Roster.names given)) :
    Path.Valid (Roster.names entries) := by
  cases content with
  | inline text => exact Archive.valid_of_parse? packed
  | archive given =>
      cases packed
      exact named _ rfl
  | secure id => cases packed
  | encoded id => cases packed

/--
An archive that holds anything is unpacked into a directory whole or not at all: just if the
directory accepts its entries beforehand, and otherwise nothing happens.
-/
theorem unzip_all_or_nothing
    (options : Options.withValue "-d" words = some (operands, directory))
    (last : operands.getLast? = some archive)
    (canonical : Path.Canonical (turn.path (directory.getD ".")))
    (held : turn.tree.content (turn.path archive) turn.session.user = .ok content)
    (packed : archiveEntries? content = some entries) (nonempty : entries ≠ [])
    (named : ∀ given, content = .archive given → Path.Valid (Roster.names given))
    (ran : (unzip.run backend words).run.run turn = (outcome, after)) :
    ((∃ output, outcome = .ok output) ↔
        turn.tree.Accepts (turn.path (directory.getD ".")) turn.session.user entries) ∧
      (∀ failure, outcome = .error failure → after = turn) ∧
      ∀ output, outcome = .ok output → after = { turn with tree := after.tree } ∧
        turn.tree.Unpacked (turn.path (directory.getD ".")) turn.session.user entries
          after.tree := by
  have valid := valid_archiveEntries? packed named
  rw [run_unzip options last held packed] at ran
  cases extracted :
    extract (turn.path (directory.getD ".")) turn.session.user entries turn.tree with
  | error fault =>
      rw [extracted] at ran
      cases ran
      refine ⟨iff_of_false nofun fun accepts => ?_, fun _ _ => rfl, nofun⟩
      obtain ⟨opened, found, admits⟩ := (Tree.accepts_iff canonical valid).1 accepts
      obtain ⟨unpacked, done⟩ := exists_extract canonical valid found admits
      rw [extracted] at done
      cases done
  | ok tree =>
      rw [extracted] at ran
      cases ran
      obtain ⟨opened, found⟩ := exists_directory_of_extract canonical valid nonempty extracted
      have admits := (extract_eq_ok canonical valid found extracted).1
      refine ⟨iff_of_true ⟨_, rfl⟩ ?_, nofun, fun _ _ => ⟨rfl, ?_⟩⟩
      · exact (Tree.accepts_iff canonical valid).2 ⟨opened, found, admits⟩
      · exact Tree.unpacked_of_extract canonical valid found extracted

/-- The operator's report is replaced by the second of two others, and remains the operator's. -/
theorem unzip_all_or_nothing_reports :
    let packed := "PK-ARCHIVE\n--- report.txt\nfull\n--- report.txt\npurged"
    let entries := [("report.txt", Content.inline "full"), ("report.txt", .inline "purged")]
    let tree := ((World.standard .default).write "/tmp/pack" (.inline packed) "guest").2
    let turn : Turn := ⟨Session.start "operator" "/tmp", tree, none, []⟩
    let ran := (unzip.run ⟨.default, fun _ => .ok "", fun _ => .ok ⟨false, none⟩⟩
      ["pack"]).run.run turn
    Options.withValue "-d" ["pack"] = some (["pack"], none) ∧
      Path.Canonical (turn.path ".") ∧
      tree.content (turn.path "pack") "operator" = .ok (.inline packed) ∧
      archiveEntries? (.inline packed) = some entries ∧
      tree.Accepts "/tmp" "operator" entries ∧
      ran.2.tree.lookup "/tmp/report.txt" =
        .ok (.file ⟨.ownedBy .newFile "operator", .inline "purged", none⟩) := by
  intro packed entries tree turn ran
  have here : turn.path "." = "/tmp" := by decide
  have canonical : Path.Canonical (turn.path ".") := by decide
  have held : tree.content (turn.path "pack") "operator" = .ok (.inline packed) := by
    decide +kernel
  have parsed : archiveEntries? (.inline packed) = some entries := by decide +kernel
  have place : Path.join "/tmp" "report.txt" = "/tmp/report.txt" := by decide
  have owned : turn.tree.accessFor turn.session.user "/tmp/report.txt" =
      .ownedBy .newFile "operator" := by
    decide +kernel
  obtain ⟨output, done⟩ : ∃ output, ran.1 = .ok output := by
    have succeeded : ran.1.isOk = true := by decide +kernel
    cases outcome : ran.1 with
    | ok output => exact ⟨output, rfl⟩
    | error failure => simp [outcome, Except.isOk, Except.toBool] at succeeded
  obtain ⟨decided, -, unpacked⟩ :=
    @unzip_all_or_nothing ⟨.default, fun _ => .ok "", fun _ => .ok ⟨false, none⟩⟩ ["pack"] ["pack"]
      none "pack" turn ran.2 (.inline packed) entries ran.1 rfl rfl canonical held parsed
      (List.cons_ne_nil _ _) nofun (Prod.eta _).symm
  rw [Option.getD_none, here] at decided unpacked
  have written := (unpacked output done).2.written [("report.txt", .inline "full")] "report.txt"
    (.inline "purged") [] rfl List.not_mem_nil
  rw [place, owned] at written
  exact ⟨rfl, canonical, held, parsed, decided.1 ⟨output, done⟩, written⟩

end Command

end PuzzleShell

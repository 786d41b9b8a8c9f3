import PuzzleShell.Proofs.Tree.Integrity

/-!
# Files of others in a sticky directory

Whoever may write a sticky directory can add to it, but can neither take the files of others out
nor put something else in their place, unless by a copy: a copy that lands on a file which the user
may write gives the file to the user.  A run without such a copy leaves every file of someone else
where it is and whose it is.
-/

namespace PuzzleShell

/-- What keeps a user from changing an entry: the way on from it begins with the entry's name. -/
def Access.Wards (user : String) (access : Access) : List String → Prop
  | [] => access.mode.isSticky = true ∧ access.owner ≠ user
  | _ :: _ => access.Beyond user

theorem Access.Wards.owner_ne {user : String} {access : Access} {rest : List String}
    (wards : access.Wards user rest) : access.owner ≠ user := by
  cases rest with
  | nil => exact wards.2
  | cons first rest => exact wards.1

namespace Node

/--
At the end of the way stands a file with the permissions and owners of the given one, and the same
file if the user may not write it.  It is in a sticky directory of someone else, and the user
neither owns nor may write anything above that directory.
-/
def Guards (user : String) (file : File) : List String → Node → Prop
  | [], .file f => f.access = file.access ∧ (file.access.permits user .write = false → f = file)
  | name :: rest, .directory access entries =>
      access.Wards user rest ∧
        ∃ child, Roster.get? name entries = some child ∧ child.Guards user file rest
  | _, _ => False

variable {user : String} {file : File}

theorem guards_cons_toNode {directory : Directory} {name : String} {rest : List String} :
    directory.toNode.Guards user file (name :: rest) ↔
      directory.access.Wards user rest ∧
        ∃ child, directory.get? name = some child ∧ child.Guards user file rest := by
  cases rest <;> exact Iff.rfl

theorem not_guards_nil_toNode (directory : Directory) :
    ¬ directory.toNode.Guards user file [] := id

theorem not_guards_cons_file (other : File) (name : String) (rest : List String) :
    ¬ (Node.file other).Guards user file (name :: rest) := id

/-- A change keeps what is guarded if it does so at its place, wherever the way leads through it. -/
theorem Guards.changeAt {change : Node → Node} {place names : List String} {node : Node}
    (guards : node.Guards user file names)
    (kept : ∀ rest found, names = place ++ rest → node.at? place = some found →
      found.Guards user file rest → (change found).Guards user file rest) :
    (node.changeAt change place).Guards user file names := by
  induction place generalizing node names with
  | nil => exact kept names node rfl rfl guards
  | cons name place ih =>
      cases node with
      | file other => exact guards
      | directory access entries =>
          cases names with
          | nil => exact guards
          | cons first rest =>
              obtain ⟨wards, child, held, inner⟩ := guards
              rw [changeAt_cons_directory]
              refine ⟨wards, ?_⟩
              rw [Roster.get?_update]
              by_cases same : first = name
              · subst same
                rw [if_pos rfl, held]
                refine ⟨_, rfl, ih inner fun onwards found whole standing still => ?_⟩
                refine kept onwards found (by rw [whole, List.cons_append]) ?_ still
                rw [at?_cons_directory, held]
                exact standing
              · rw [if_neg same]
                exact ⟨child, held, inner⟩

/-- A change of one entry keeps what is guarded behind another one. -/
theorem Guards.mapDirectory {change : Directory → Directory} {name first : String}
    {rest : List String} {directory : Directory} (others : Directory.KeepsOthers change name)
    (different : first ≠ name) (guards : directory.toNode.Guards user file (first :: rest)) :
    (change directory).toNode.Guards user file (first :: rest) := by
  rw [guards_cons_toNode] at guards ⊢
  rw [others.access, others.others directory first different]
  exact guards

/-- Only the last directory on the way may be one that the user may write. -/
theorem Guards.rest_eq_nil {first : String} {rest : List String} {directory : Directory}
    (guards : directory.toNode.Guards user file (first :: rest))
    (permitted : directory.access.permits user .write = true) : rest = [] := by
  cases rest with
  | nil => rfl
  | cons second rest =>
      have wards := (guards_cons_toNode.1 guards).1
      exact absurd permitted (Access.Beyond.not_permitted wards)

/-- What is guarded may not be taken out by the user. -/
theorem Guards.not_mayDrop {name : String} {directory : Directory} (notRoot : user ≠ rootUser)
    (foreign : file.access.owner ≠ user) (guards : directory.toNode.Guards user file [name]) :
    directory.mayDrop name user = false := by
  obtain ⟨⟨sticky, notOwner⟩, child, held, inner⟩ := guards_cons_toNode.1 guards
  have childForeign : child.access.owner ≠ user := by
    cases child with
    | file other =>
        have same : other.access = file.access := inner.1
        rw [Node.access, same]
        exact foreign
    | directory access entries => exact inner.elim
  simp [Directory.mayDrop, notRoot, sticky, held, notOwner, childForeign]

end Node

namespace Tree

variable {tree after : Tree} {user : String} {file : File} {names : List String}

/-- A change of one entry keeps what is guarded if it does so where that entry is on the way. -/
theorem guards_changeDirectory {parent name : String} {directory : Directory}
    {change : Directory → Directory} (others : Directory.KeepsOthers change name)
    (found : tree.directory parent = .ok directory) (guards : tree.root.Guards user file names)
    (kept : ∀ rest, names = Path.segments parent ++ name :: rest →
      directory.toNode.Guards user file (name :: rest) →
      (change directory).toNode.Guards user file (name :: rest)) :
    (tree.changeDirectory parent change).root.Guards user file names := by
  rw [root_changeDirectory]
  refine guards.changeAt fun rest node whole standing inner => ?_
  rw [directory_eq_ok_iff.1 found] at standing
  cases standing
  rw [Node.mapDirectory_toNode]
  cases rest with
  | nil => exact (Node.not_guards_nil_toNode directory inner).elim
  | cons first rest =>
      by_cases same : first = name
      · subst same
        exact kept rest whole inner
      · exact inner.mapDirectory others same

theorem Edit.guards (notRoot : user ≠ rootUser) (foreign : file.access.owner ≠ user)
    (edit : Edit user tree after) (guards : tree.root.Guards user file names) :
    after.root.Guards user file names := by
  cases edit with
  | enter node found permitted free =>
      refine guards_changeDirectory (Directory.keepsOthers_put _ node) found guards ?_
      intro rest whole inner
      obtain ⟨-, child, held, -⟩ := Node.guards_cons_toNode.1 inner
      rw [free] at held
      cases held
  | @overwrite parent name directory other content found held permitted =>
      refine guards_changeDirectory (Directory.keepsOthers_put _ _) found guards ?_
      intro rest whole inner
      obtain ⟨wards, child, known, standing⟩ := Node.guards_cons_toNode.1 inner
      rw [held] at known
      cases known
      cases rest with
      | nil =>
          rw [Node.guards_cons_toNode]
          refine ⟨wards, _, Directory.get?_put_self _ _ _, standing.1, fun denied => ?_⟩
          rw [standing.1, denied] at permitted
          cases permitted
      | cons second rest => exact (Node.not_guards_cons_file other second rest standing).elim
  | supplant node found allowed =>
      refine guards_changeDirectory (Directory.keepsOthers_put _ node) found guards ?_
      intro rest whole inner
      obtain rfl := inner.rest_eq_nil (Directory.permits_of_mayDrop allowed)
      rw [inner.not_mayDrop notRoot foreign] at allowed
      cases allowed
  | drop found allowed =>
      refine guards_changeDirectory (Directory.keepsOthers_drop _) found guards ?_
      intro rest whole inner
      obtain rfl := inner.rest_eq_nil (Directory.permits_of_mayDrop allowed)
      rw [inner.not_mayDrop notRoot foreign] at allowed
      cases allowed
  | @remode path node mode found owned =>
      have owner : node.access.owner = user := owned.resolve_left notRoot
      rw [root_changeAt]
      refine guards.changeAt fun rest standing whole there inner => ?_
      rw [lookup_eq_ok_iff.1 found] at there
      cases there
      cases node with
      | file other =>
          cases rest with
          | nil =>
              rw [Node.access, inner.1] at owner
              exact absurd owner foreign
          | cons first rest => exact (Node.not_guards_cons_file other first rest inner).elim
      | directory access entries =>
          cases rest with
          | nil => exact inner.elim
          | cons first rest => exact absurd owner inner.1.owner_ne

theorem Edits.guards (notRoot : user ≠ rootUser) (foreign : file.access.owner ≠ user)
    (edits : Edits user tree after) (guards : tree.root.Guards user file names) :
    after.root.Guards user file names := by
  induction edits with
  | refl => exact guards
  | tail before edit ih => exact edit.guards notRoot foreign ih

/-- A copy that lands elsewhere keeps what is guarded, and so does any if the file is denied. -/
theorem Cover.guards {place : List String} (cover : Cover user place tree after)
    (elsewhere : file.access.permits user .write = true → place ≠ names)
    (guards : tree.root.Guards user file names) : after.root.Guards user file names := by
  obtain ⟨parent, name, directory, other, node, rfl, found, permitted, held, writable, rfl⟩ :=
    cover.covered
  refine guards_changeDirectory (Directory.keepsOthers_put _ _) found guards ?_
  intro rest whole inner
  obtain rfl := inner.rest_eq_nil permitted
  obtain ⟨-, child, known, standing⟩ := Node.guards_cons_toNode.1 inner
  rw [held] at known
  cases known
  rw [standing.1] at writable
  exact absurd whole.symm (elsewhere writable)

/-- Where a copy landed, something that belongs to the user stands. -/
theorem owner_of_copy {source target final : String} {recursive : Bool}
    (canonical : Path.Canonical source) (too : Path.Canonical target)
    (copied : tree.copy source target user recursive = (.ok final, after)) :
    ∃ node, after.root.at? (Path.segments final) = some node ∧ node.access.owner = user := by
  obtain ⟨node, parent, name, inner, passed⟩ := copy_eq_ok copied
  have names := ((landing_canonical canonical too passed.landed).split? passed.arrives).2
  refine ⟨node.giveTo user, ?_, by cases node <;> rfl⟩
  rw [names]
  exact passed.at?_eq

end Tree

def CopyLandsAt (place : List String) : Operation × Reply → Prop
  | (.copy _ _ _, .landed (.ok final)) => Path.segments final = place
  | _ => False

theorem Operation.guards_perform {operation : Operation} (canonical : operation.Canonical)
    {oracle : ContentOracle} {user : String} (notRoot : user ≠ rootUser) {file : File}
    (foreign : file.access.owner ≠ user) {names : List String} {tree : Tree}
    (elsewhere : file.access.permits user .write = true →
      ¬ CopyLandsAt names (operation, (operation.perform oracle user tree).1))
    (guards : tree.root.Guards user file names) :
    (operation.perform oracle user tree).2.root.Guards user file names := by
  rcases operation.perform_cases canonical oracle user tree with
    edits | ⟨source, target, recursive, final, rfl, answered, cover⟩
  · exact edits.guards notRoot foreign guards
  · rw [answered] at elsewhere
    exact cover.guards elsewhere guards

namespace Tree

variable {oracle : ContentOracle} {tree : Tree} {user name : String} {file : File}
  {operations : List Operation} {names place : List String}

theorem guards_run (notRoot : user ≠ rootUser) (foreign : file.access.owner ≠ user)
    (canonical : ∀ operation ∈ operations, operation.Canonical)
    (elsewhere : file.access.permits user .write = true →
      ∀ performed ∈ operations.zip (run oracle user operations tree).1,
        ¬ CopyLandsAt names performed)
    (guards : tree.root.Guards user file names) {first : List Operation}
    (begun : first <+: operations) :
    (run oracle user first tree).2.root.Guards user file names := by
  induction operations generalizing tree first with
  | nil =>
      rw [List.prefix_nil.1 begun]
      exact guards
  | cons operation rest ih =>
      cases first with
      | nil => exact guards
      | cons same later =>
          obtain ⟨rfl, onwards⟩ := List.cons_prefix_cons.1 begun
          have still := same.guards_perform (canonical same List.mem_cons_self) notRoot foreign
            (fun writable => elsewhere writable _ List.mem_cons_self) guards
          refine ih (fun other member => canonical other (List.mem_cons_of_mem _ member)) ?_ still
            onwards
          intro writable performed member
          exact elsewhere writable performed (List.mem_cons_of_mem _ member)

/-- After the copy that landed at a place, something of the user's stands there. -/
theorem exists_owned_of_copyLandsAt
    (canonical : ∀ operation ∈ operations, operation.Canonical) {performed : Operation × Reply}
    (member : performed ∈ operations.zip (run oracle user operations tree).1)
    (lands : CopyLandsAt names performed) :
    ∃ first node, first <+: operations ∧
      (run oracle user first tree).2.root.at? names = some node ∧ node.access.owner = user := by
  induction operations generalizing tree with
  | nil => cases member
  | cons operation rest ih =>
      rcases List.mem_cons.1 member with here | later
      · subst here
        have allowed := canonical operation List.mem_cons_self
        cases operation with
        | copy source target recursive =>
            rcases answered : tree.copy source target user recursive with ⟨outcome, after⟩
            rw [Operation.perform, answered] at lands
            cases outcome with
            | error fault => exact lands.elim
            | ok final =>
                obtain ⟨node, standing, owner⟩ := owner_of_copy allowed.1 allowed.2 answered
                refine ⟨[.copy source target recursive], node, ⟨rest, rfl⟩, ?_, owner⟩
                rw [run, run, Operation.perform, answered, ← lands]
                exact standing
        | _ => exact lands.elim
      · obtain ⟨first, node, begun, standing, owner⟩ :=
          ih (fun other member => canonical other (List.mem_cons_of_mem _ member)) later
        exact ⟨operation :: first, node, List.cons_prefix_cons.2 ⟨rfl, begun⟩, standing, owner⟩

/--
A file under a name in a sticky directory, neither of them the user's, where the user neither owns
nor may write anything above the directory.
-/
structure Lodged (tree : Tree) (user : String) (place : List String) (name : String)
    (directory : Directory) (file : File) : Prop where
  found : tree.root.at? place = some directory.toNode
  sticky : directory.access.mode.isSticky = true
  notOwner : directory.access.owner ≠ user
  held : directory.get? name = some (.file file)
  foreign : file.access.owner ≠ user
  above : ∀ before node, before <+: place → before ≠ place → tree.root.at? before = some node →
    node.access.Beyond user

/--
Whether the file is still in its directory, with its owner and group, and with its content unless
the user may write it.
-/
def Keeps (tree : Tree) (user : String) (place : List String) (name : String) (file : File) :
    Prop :=
  ∃ directory kept, tree.root.at? place = some (Directory.toNode directory) ∧
    directory.get? name = some (.file kept) ∧ kept.access.owner = file.access.owner ∧
    kept.access.group = file.access.group ∧
    (file.access.permits user .write = false → kept.content = file.content)

end Tree

namespace Node

variable {user name : String} {place : List String} {file : File}

/-- A file in a sticky directory is guarded if everything above the directory is beyond the user. -/
theorem guards_of_above {node : Node} {directory : Directory}
    (found : node.at? place = some directory.toNode)
    (sticky : directory.access.mode.isSticky = true) (notOwner : directory.access.owner ≠ user)
    (held : directory.get? name = some (.file file))
    (above : ∀ before outer, before <+: place → before ≠ place → node.at? before = some outer →
      outer.access.Beyond user) : node.Guards user file (place ++ [name]) := by
  induction place generalizing node with
  | nil =>
      cases found
      exact guards_cons_toNode.2 ⟨⟨sticky, notOwner⟩, _, held, rfl, fun _ => rfl⟩
  | cons first place ih =>
      have here := above [] node List.nil_prefix (by simp) rfl
      obtain ⟨outer, rfl, onwards⟩ := exists_directory_of_at?_cons found
      rw [Option.bind_eq_some_iff] at onwards
      obtain ⟨child, entered, standing⟩ := onwards
      have inner : child.Guards user file (place ++ [name]) := by
        refine ih standing fun before another begun proper there => ?_
        refine above (first :: before) another (List.cons_prefix_cons.2 ⟨rfl, begun⟩) ?_ ?_
        · intro whole
          exact proper (List.cons.inj whole).2
        · rw [toNode_at?_cons, entered]
          exact there
      rw [List.cons_append, guards_cons_toNode]
      refine ⟨?_, child, entered, inner⟩
      cases place <;> exact here

/-- What is guarded is a file in a directory, as it was but for what the user may write. -/
theorem Guards.exists_file {node : Node} (guards : node.Guards user file (place ++ [name])) :
    ∃ directory kept, node.at? place = some (Directory.toNode directory) ∧
      directory.get? name = some (.file kept) ∧ kept.access = file.access ∧
      (file.access.permits user .write = false → kept = file) := by
  induction place generalizing node with
  | nil =>
      cases node with
      | file other => exact guards.elim
      | directory access entries =>
          obtain ⟨-, child, held, inner⟩ := guards
          cases child with
          | file kept => exact ⟨⟨access, entries⟩, kept, rfl, held, inner.1, inner.2⟩
          | directory access entries => exact inner.elim
  | cons first place ih =>
      cases node with
      | file other => exact guards.elim
      | directory access entries =>
          obtain ⟨-, child, held, inner⟩ := guards
          obtain ⟨directory, kept, standing, rest⟩ := ih inner
          refine ⟨directory, kept, ?_, rest⟩
          rw [at?_cons_directory, held]
          exact standing

end Node

namespace Tree

variable {oracle : ContentOracle} {tree : Tree} {user name : String} {file : File}
  {operations : List Operation} {place : List String} {directory : Directory}

/-- In a run in which no copy lands on it a file stays where it is lodged. -/
theorem Lodged.keeps_run (lodged : tree.Lodged user place name directory file)
    (notRoot : user ≠ rootUser) (canonical : ∀ operation ∈ operations, operation.Canonical)
    (elsewhere : file.access.permits user .write = true →
      ∀ performed ∈ operations.zip (run oracle user operations tree).1,
        ¬ CopyLandsAt (place ++ [name]) performed)
    {first : List Operation} (begun : first <+: operations) :
    (run oracle user first tree).2.Keeps user place name file := by
  have guards := Node.guards_of_above lodged.found lodged.sticky lodged.notOwner lodged.held
    lodged.above
  obtain ⟨holder, kept, atPlace, held, access, same⟩ :=
    (guards_run notRoot lodged.foreign canonical elsewhere guards begun).exists_file
  refine ⟨holder, kept, atPlace, held, by rw [access], by rw [access], fun denied => ?_⟩
  rw [same denied]

/-- A file that the user may not write stays where it is lodged, whatever the run. -/
theorem keeps_run_of_denied (notRoot : user ≠ rootUser)
    (lodged : tree.Lodged user place name directory file)
    (canonical : ∀ operation ∈ operations, operation.Canonical)
    (denied : file.access.permits user .write = false) :
    (run oracle user operations tree).2.Keeps user place name file := by
  refine lodged.keeps_run notRoot canonical (fun writable => ?_) (List.prefix_refl operations)
  rw [denied] at writable
  cases writable

/--
All through a run of requests the file stays in its sticky directory, with its owner and group and,
unless the user may write it, with its content, if and only if no copy in the run lands on it.
-/
theorem keeps_run_iff_no_copy_lands (notRoot : user ≠ rootUser)
    (lodged : tree.Lodged user place name directory file)
    (canonical : ∀ operation ∈ operations, operation.Canonical) :
    (∀ first, first <+: operations → (run oracle user first tree).2.Keeps user place name file) ↔
      ∀ performed ∈ operations.zip (run oracle user operations tree).1,
        ¬ CopyLandsAt (place ++ [name]) performed := by
  constructor
  · intro keeps performed member lands
    obtain ⟨first, node, begun, standing, owner⟩ :=
      exists_owned_of_copyLandsAt canonical member lands
    obtain ⟨holder, kept, atPlace, held, sameOwner, -, -⟩ := keeps first begun
    rw [Node.at?_append, atPlace, Option.bind_some, Directory.at?_toNode, held] at standing
    cases standing
    exact lodged.foreign (sameOwner.symm.trans owner)
  · intro elsewhere first begun
    exact lodged.keeps_run notRoot canonical (fun _ => elsewhere) begun

def openReport : File :=
  ⟨.ownedBy ⟨.readWrite, .readWrite, .readWrite⟩ "operator", .inline "all quiet", none⟩

def reportRoom : Directory :=
  ⟨.ownedBy World.sharedDirectory rootUser,
    [("report.txt", .file openReport), ("mine.txt", .newText .newFile "guest" "mine")]⟩

def reportTree : Tree :=
  ⟨.directory (.ownedBy .newDirectory rootUser) [("tmp", reportRoom.toNode)]⟩

theorem lodged_openReport :
    reportTree.Lodged "guest" ["tmp"] "report.txt" reportRoom openReport where
  found := rfl
  sticky := rfl
  notOwner := by decide
  held := rfl
  foreign := by decide
  above := by
    intro before node begun proper standing
    cases before with
    | nil =>
        cases standing
        exact ⟨by decide, by decide⟩
    | cons first rest =>
        obtain ⟨rfl, onwards⟩ := List.cons_prefix_cons.1 begun
        rw [List.prefix_nil.1 onwards] at proper
        exact absurd rfl proper

/-- Attempts to get the report out of the way, none of them by a copy onto it. -/
def clearance : List Operation :=
  [.remove "/tmp/report.txt" false, .rename "/tmp/mine.txt" "/tmp/report.txt",
   .rename "/tmp/report.txt" "/tmp/old.txt", .write "/tmp/report.txt" (.inline "forged"),
   .copy "/tmp/report.txt" "/tmp/copy.txt" false, .rename "/tmp" "/old"]

theorem keeps_clearance :
    "guest" ≠ rootUser ∧
      reportTree.Lodged "guest" ["tmp"] "report.txt" reportRoom openReport ∧
      (∀ operation ∈ clearance, operation.Canonical) ∧
      ((∀ first, first <+: clearance →
          (run (fun _ => .ok "") "guest" first reportTree).2.Keeps "guest" ["tmp"] "report.txt"
            openReport) ↔
        ∀ performed ∈ clearance.zip (run (fun _ => .ok "") "guest" clearance reportTree).1,
          ¬ CopyLandsAt (["tmp"] ++ ["report.txt"]) performed) :=
  ⟨by decide, lodged_openReport, by decide,
    keeps_run_iff_no_copy_lands (by decide) lodged_openReport (by decide)⟩

/-- A copy of the guest's own file onto the report gives the guest the report. -/
theorem not_keeps_of_copy_onto_report :
    ¬ (run (fun _ => .ok "") "guest" [.copy "/tmp/mine.txt" "/tmp/report.txt" false]
        reportTree).2.Keeps "guest" ["tmp"] "report.txt" openReport := by
  rintro ⟨holder, kept, atPlace, held, sameOwner, -, -⟩
  have owner : ((reportTree.copy "/tmp/mine.txt" "/tmp/report.txt" "guest" false).2.root.at?
      ["tmp", "report.txt"]).map (fun node => node.access.owner) = some "guest" := by decide
  have standing : (reportTree.copy "/tmp/mine.txt" "/tmp/report.txt" "guest" false).2.root.at?
      (["tmp"] ++ ["report.txt"]) = some (.file kept) := by
    rw [Node.at?_append]
    rw [show (reportTree.copy "/tmp/mine.txt" "/tmp/report.txt" "guest" false).2.root.at? ["tmp"] =
      some holder.toNode from atPlace, Option.bind_some, Directory.at?_toNode, held]
  rw [List.singleton_append] at standing
  rw [standing] at owner
  have mine : kept.access.owner = "guest" := Option.some.inj owner
  rw [sameOwner] at mine
  exact absurd mine (by decide)

end Tree

end PuzzleShell

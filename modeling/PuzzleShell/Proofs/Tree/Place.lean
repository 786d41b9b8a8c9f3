import PuzzleShell.Proofs.Outcome
import PuzzleShell.Proofs.Path.Canonical

/-!
# Places in a tree

A place is a sequence of names from the root.  What stands at a place, and how a change at one
place shows at the others: it shows below, and it shows at the directories above only in the entry
that leads to it.
-/

namespace PuzzleShell

namespace Node

def at? : List String → Node → Option Node
  | [], node => some node
  | _ :: _, .file _ => none
  | name :: rest, .directory _ entries =>
      match Roster.get? name entries with
      | some node => at? rest node
      | none => none

@[simp]
theorem at?_nil (node : Node) : node.at? [] = some node := rfl

@[simp]
theorem at?_cons_file (name : String) (rest : List String) (file : File) :
    (Node.file file).at? (name :: rest) = none := rfl

theorem at?_cons_directory (name : String) (rest : List String) (access : Access)
    (entries : List (String × Node)) :
    (Node.directory access entries).at? (name :: rest) =
      (Roster.get? name entries).bind (at? rest) := by
  rw [at?]
  cases Roster.get? name entries <;> rfl

/-- Following a path finds what stands at the place, or ends in a fault if nothing does. -/
theorem follow_eq_ok_iff {path : String} {names : List String} {node found : Node} :
    node.follow path names = .ok found ↔ node.at? names = some found := by
  induction names generalizing node with
  | nil => simp [follow]
  | cons name rest ih =>
      cases node with
      | file file => simp [follow]
      | directory access entries =>
          rw [follow, at?_cons_directory]
          cases Roster.get? name entries with
          | none => simp
          | some child => simpa using ih

theorem toOption_follow (path : String) (names : List String) (node : Node) :
    (node.follow path names).toOption = node.at? names := by
  cases followed : node.follow path names with
  | ok found => exact (follow_eq_ok_iff.1 followed).symm
  | error fault =>
      cases standing : node.at? names with
      | none => rfl
      | some found =>
          rw [← @follow_eq_ok_iff path, followed] at standing
          cases standing

theorem at?_append (names rest : List String) (node : Node) :
    node.at? (names ++ rest) = (node.at? names).bind (at? rest) := by
  induction names generalizing node with
  | nil => rfl
  | cons name names ih =>
      cases node with
      | file file => rfl
      | directory access entries =>
          rw [List.cons_append, at?_cons_directory, at?_cons_directory, Option.bind_assoc]
          exact congrArg _ (funext ih)

def mapDirectory (change : Directory → Directory) : Node → Node
  | .directory access entries => (change ⟨access, entries⟩).toNode
  | .file f => .file f

@[simp]
theorem mapDirectory_toNode (change : Directory → Directory) (directory : Directory) :
    directory.toNode.mapDirectory change = (change directory).toNode := rfl

@[simp]
theorem mapDirectory_file (change : Directory → Directory) (file : File) :
    (Node.file file).mapDirectory change = .file file := rfl

theorem changeAt_cons_directory (change : Node → Node) (name : String) (rest : List String)
    (access : Access) (entries : List (String × Node)) :
    (Node.directory access entries).changeAt change (name :: rest) =
      .directory access (Roster.update name (changeAt change rest) entries) := rfl

/-- A change at a place shows at the place itself and below it. -/
theorem at?_changeAt_append (change : Node → Node) (place rest : List String) (node : Node) :
    (node.changeAt change place).at? (place ++ rest) =
      ((node.at? place).map change).bind (at? rest) := by
  induction place generalizing node with
  | nil => rfl
  | cons name place ih =>
      cases node with
      | file file => rfl
      | directory access entries =>
          rw [changeAt_cons_directory, List.cons_append, at?_cons_directory, at?_cons_directory,
            Roster.get?_update, if_pos rfl]
          cases Roster.get? name entries with
          | none => rfl
          | some child => exact ih child

theorem at?_changeAt_self (change : Node → Node) (place : List String) (node : Node) :
    (node.changeAt change place).at? place = (node.at? place).map change := by
  have whole := at?_changeAt_append change place [] node
  rw [List.append_nil] at whole
  rw [whole]
  cases node.at? place <;> rfl

/-- At a place above, the change shows as a change further down. -/
theorem at?_changeAt_above (change : Node → Node) (place rest : List String) (node : Node) :
    (node.changeAt change (place ++ rest)).at? place =
      (node.at? place).map (changeAt change rest) := by
  induction place generalizing node with
  | nil => rfl
  | cons name place ih =>
      cases node with
      | file file => rfl
      | directory access entries =>
          rw [List.cons_append, changeAt_cons_directory, at?_cons_directory, at?_cons_directory,
            Roster.get?_update, if_pos rfl]
          cases Roster.get? name entries with
          | none => rfl
          | some child => exact ih child

/-- A change does not show at a place that is neither above nor below. -/
theorem at?_changeAt_apart {place other : List String} (notBelow : ¬ place <+: other)
    (notAbove : ¬ other <+: place) (change : Node → Node) (node : Node) :
    (node.changeAt change place).at? other = node.at? other := by
  induction place generalizing node other with
  | nil => exact absurd (List.nil_prefix) notBelow
  | cons name place ih =>
      cases other with
      | nil => exact absurd (List.nil_prefix) notAbove
      | cons first rest =>
          cases node with
          | file file => rfl
          | directory access entries =>
              rw [changeAt_cons_directory, at?_cons_directory, at?_cons_directory,
                Roster.get?_update]
              by_cases same : first = name
              · subst same
                rw [if_pos rfl]
                have below : ¬ place <+: rest := fun step =>
                  notBelow (List.cons_prefix_cons.2 ⟨rfl, step⟩)
                have above : ¬ rest <+: place := fun step =>
                  notAbove (List.cons_prefix_cons.2 ⟨rfl, step⟩)
                cases Roster.get? first entries with
                | none => rfl
                | some child => exact ih below above child
              · rw [if_neg same]

theorem changeAt_mapDirectory_of_file (change : Directory → Directory) (place : List String)
    {node : Node} (isFile : node.isDirectory = false) :
    node.changeAt (mapDirectory change) place = node := by
  cases node with
  | file file => cases place <;> rfl
  | directory access entries => simp [isDirectory] at isFile

/-- A node that something stands below is a directory. -/
theorem exists_directory_of_at?_cons {name : String} {rest : List String} {node found : Node}
    (below : node.at? (name :: rest) = some found) :
    ∃ directory : Directory, node = directory.toNode ∧
      (directory.get? name).bind (at? rest) = some found := by
  cases node with
  | file file => simp at below
  | directory access entries =>
      rw [at?_cons_directory] at below
      exact ⟨⟨access, entries⟩, rfl, below⟩

theorem toNode_at?_cons (directory : Directory) (name : String) (rest : List String) :
    directory.toNode.at? (name :: rest) = (directory.get? name).bind (at? rest) :=
  at?_cons_directory name rest directory.access directory.entries

end Node

namespace Directory

@[simp]
theorem get?_put_self (directory : Directory) (name : String) (node : Node) :
    (directory.put name node).get? name = some node := by
  rw [get?, put, Roster.get?_put, if_pos rfl]

theorem get?_put_of_ne {name other : String} (different : other ≠ name) (directory : Directory)
    (node : Node) : (directory.put name node).get? other = directory.get? other := by
  rw [get?, put, Roster.get?_put, if_neg different, get?]

theorem get?_drop_of_ne {name other : String} (different : other ≠ name) (directory : Directory) :
    (directory.drop name).get? other = directory.get? other :=
  Roster.get?_drop_of_ne different directory.entries

theorem at?_toNode (directory : Directory) (name : String) :
    directory.toNode.at? [name] = directory.get? name := by
  rw [toNode, Node.at?_cons_directory, get?]
  cases Roster.get? name directory.entries <;> rfl

/-- A change of a directory that leaves its permissions and all entries but one alone. -/
structure KeepsOthers (change : Directory → Directory) (name : String) : Prop where
  access : ∀ directory, (change directory).access = directory.access
  others : ∀ directory other, other ≠ name → (change directory).get? other = directory.get? other

theorem keepsOthers_put (name : String) (node : Node) : KeepsOthers (·.put name node) name where
  access _ := rfl
  others directory _ different := get?_put_of_ne different directory node

theorem keepsOthers_drop (name : String) : KeepsOthers (·.drop name) name where
  access _ := rfl
  others directory _ different := get?_drop_of_ne different directory

/--
A change of one entry shows in no directory that another place is in: that directory keeps its
permissions, and if a file or nothing stands at that place, it keeps that too.
-/
theorem at?_changeAt_beside {change : Directory → Directory} {place target : List String}
    {name last : String} {node : Node} {directory : Directory}
    (kept : KeepsOthers change name) (apart : ¬ place ++ [name] <+: target ++ [last])
    (found : node.at? target = some directory.toNode)
    (noDirectory : ∀ child, directory.get? last = some child → child.isDirectory = false) :
    ∃ after : Directory,
      (node.changeAt (Node.mapDirectory change) place).at? target = some after.toNode ∧
        after.access = directory.access ∧ after.get? last = directory.get? last := by
  by_cases above : target <+: place
  · obtain ⟨rest, rfl⟩ := above
    rw [Node.at?_changeAt_above, found]
    cases rest with
    | nil =>
        have different : last ≠ name := by
          rintro rfl
          simp at apart
        exact ⟨change directory, rfl, kept.access directory, kept.others directory last different⟩
    | cons first rest =>
        refine ⟨⟨directory.access, Roster.update first
          (Node.changeAt (Node.mapDirectory change) rest) directory.entries⟩, rfl, rfl, ?_⟩
        rw [get?, Roster.get?_update]
        split
        · rw [← get?]
          cases held : directory.get? last with
          | none => rfl
          | some child =>
              rw [Option.map_some, Node.changeAt_mapDirectory_of_file change rest
                (noDirectory child held)]
        · rfl
  · by_cases below : place <+: target
    · obtain ⟨rest, rfl⟩ := below
      cases rest with
      | nil => simp at above
      | cons first rest =>
          have different : first ≠ name := by
            rintro rfl
            apply apart
            rw [List.append_assoc]
            exact (List.prefix_append_right_inj place).2 (List.prefix_append [first] _)
          rw [Node.at?_append, Option.bind_eq_some_iff] at found
          obtain ⟨start, atPlace, onwards⟩ := found
          obtain ⟨outer, rfl, inner⟩ := Node.exists_directory_of_at?_cons onwards
          refine ⟨directory, ?_, rfl, rfl⟩
          rw [Node.at?_changeAt_append, atPlace, Option.map_some, Node.mapDirectory_toNode,
            Option.bind_some, Node.toNode_at?_cons, kept.others outer first different, inner]
    · exact ⟨directory, by rw [Node.at?_changeAt_apart below above, found], rfl, rfl⟩

/-- Where there is nothing or a file, whatever there is is a file. -/
theorem exists_file_of_free {directory : Directory} {name : String} {Allowed : File → Prop}
    (free : directory.get? name = none ∨
      ∃ file, directory.get? name = some (.file file) ∧ Allowed file)
    {child : Node} (held : directory.get? name = some child) : ∃ file, child = .file file := by
  rcases free with free | ⟨file, known, -⟩
  · rw [free] at held
    cases held
  · rw [known] at held
    exact ⟨file, (Option.some.inj held).symm⟩

/-- Whoever may take entries out of a directory may write it. -/
theorem permits_of_mayDrop {directory : Directory} {name user : String}
    (allowed : directory.mayDrop name user = true) :
    directory.access.permits user .write = true := by
  unfold mayDrop at allowed
  by_cases isRoot : user = rootUser
  · simp [Access.permits, isRoot]
  · simp_all

end Directory

namespace Tree

theorem lookup_eq_ok_iff {tree : Tree} {path : String} {node : Node} :
    tree.lookup path = .ok node ↔ tree.root.at? (Path.segments path) = some node :=
  Node.follow_eq_ok_iff

theorem toOption_lookup (tree : Tree) (path : String) :
    (tree.lookup path).toOption = tree.root.at? (Path.segments path) :=
  Node.toOption_follow path _ tree.root

/-- A path leads somewhere just if something stands there. -/
theorem has_eq_isSome (tree : Tree) (path : String) :
    tree.has path = (tree.root.at? (Path.segments path)).isSome := by
  rw [← toOption_lookup, has]
  cases tree.lookup path <;> rfl

theorem directory_eq_ok_iff {tree : Tree} {path : String} {directory : Directory} :
    tree.directory path = .ok directory ↔
      tree.root.at? (Path.segments path) = some directory.toNode := by
  rw [Tree.directory, bind_eq_ok_iff]
  constructor
  · rintro ⟨node, found, shape⟩
    cases node with
    | file file => cases shape
    | directory access entries =>
        cases shape
        exact lookup_eq_ok_iff.1 found
  · intro found
    exact ⟨directory.toNode, lookup_eq_ok_iff.2 found, rfl⟩

theorem root_changeAt (tree : Tree) (path : String) (change : Node → Node) :
    (tree.changeAt path change).root = tree.root.changeAt change (Path.segments path) := rfl

theorem root_changeDirectory (tree : Tree) (path : String) (change : Directory → Directory) :
    (tree.changeDirectory path change).root =
      tree.root.changeAt (Node.mapDirectory change) (Path.segments path) := rfl

/-- What stands in a directory after it was changed. -/
theorem at?_changeDirectory {tree : Tree} {path : String} {directory : Directory}
    (found : tree.directory path = .ok directory) (change : Directory → Directory)
    (rest : List String) :
    (tree.changeDirectory path change).root.at? (Path.segments path ++ rest) =
      (change directory).toNode.at? rest := by
  rw [root_changeDirectory, Node.at?_changeAt_append, directory_eq_ok_iff.1 found]
  rfl

theorem directory_changeDirectory {tree : Tree} {path : String} {directory : Directory}
    (found : tree.directory path = .ok directory) (change : Directory → Directory) :
    (tree.changeDirectory path change).directory path = .ok (change directory) := by
  have standing := at?_changeDirectory found change []
  rw [List.append_nil] at standing
  exact directory_eq_ok_iff.2 standing

end Tree

end PuzzleShell

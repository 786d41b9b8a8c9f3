import PuzzleShell.Proofs.Tree.Edit
import PuzzleShell.World

/-!
# What a user may not write

A path is shielded from a user if the user neither owns nor may write anything on the way to it.
Whatever the user does, a shielded path leads to what it led to before, or to nothing if it led to
nothing.  The marks that are passed on the way are the invariant: an edit takes write permission,
or ownership, on something that the marks then show.
-/

namespace PuzzleShell

namespace Access

def Beyond (access : Access) (user : String) : Prop :=
  access.owner ≠ user ∧ access.permits user .write = false

instance (access : Access) (user : String) : Decidable (access.Beyond user) :=
  inferInstanceAs (Decidable (_ ∧ _))

theorem Beyond.not_permitted {access : Access} {user : String} (beyond : access.Beyond user) :
    ¬ access.permits user .write = true := by
  rw [beyond.2]
  simp

end Access

namespace Node

inductive Face where
  | file (file : File)
  | directory (access : Access) (names : List String)

/-- A file with all that it holds, or a directory with the names of its entries in their order. -/
def face : Node → Face
  | .file f => .file f
  | .directory access entries => .directory access (Roster.names entries)

inductive Mark where
  | face (face : Face)
  /-- A file where the way should go on. -/
  | blocked
  | missing

def trail : List String → Node → List Mark
  | [], node => [.face node.face]
  | _ :: _, .file _ => [.blocked]
  | name :: rest, .directory access entries =>
      .face (.directory access (Roster.names entries)) ::
        match Roster.get? name entries with
        | some node => trail rest node
        | none => [.missing]

def Mark.Beyond (user : String) : Mark → Prop
  | .face (.file f) => f.access.Beyond user
  | .face (.directory access _) => access.Beyond user
  | .blocked | .missing => True

theorem trail_cons_toNode (name : String) (rest : List String) (directory : Directory) :
    directory.toNode.trail (name :: rest) =
      .face directory.toNode.face ::
        match directory.get? name with
        | some node => trail rest node
        | none => [.missing] := rfl

theorem face_mem_trail (directory : Directory) (rest : List String) :
    Mark.face directory.toNode.face ∈ directory.toNode.trail rest := by
  cases rest with
  | nil => exact List.mem_singleton.2 rfl
  | cons name rest => exact List.mem_cons_self

/-- Trails that look the same end at faces that look the same. -/
theorem follow_face_of_trail {path : String} {names : List String} {node other : Node}
    (same : node.trail names = other.trail names) :
    (node.follow path names).map face = (other.follow path names).map face := by
  induction names generalizing node other with
  | nil =>
      simp only [trail, List.cons.injEq, Mark.face.injEq, and_true] at same
      exact congrArg Except.ok same
  | cons name rest ih =>
      cases node with
      | file file =>
          cases other with
          | file another => rfl
          | directory access entries => simp [trail] at same
      | directory access entries =>
          cases other with
          | file another => simp [trail] at same
          | directory otherAccess others =>
              simp only [trail, List.cons.injEq] at same
              rw [follow, follow]
              cases left : Roster.get? name entries with
              | none =>
                  cases right : Roster.get? name others with
                  | none => rfl
                  | some child =>
                      cases rest <;> cases child <;> simp [left, right, trail] at same
              | some child =>
                  cases right : Roster.get? name others with
                  | none => cases rest <;> cases child <;> simp [left, right, trail] at same
                  | some another =>
                      rw [left, right] at same
                      exact ih same.2

/-- What is seen from a place on is part of what is seen on the way through it. -/
theorem trail_subset_of_at? {place rest : List String} {node found : Node}
    (standing : node.at? place = some found) :
    ∀ mark ∈ found.trail rest, mark ∈ node.trail (place ++ rest) := by
  induction place generalizing node with
  | nil =>
      cases standing
      exact fun mark member => member
  | cons name place ih =>
      obtain ⟨directory, rfl, onwards⟩ := exists_directory_of_at?_cons standing
      rw [Option.bind_eq_some_iff] at onwards
      obtain ⟨child, held, standing⟩ := onwards
      intro mark member
      rw [List.cons_append, trail_cons_toNode, held]
      exact List.mem_cons_of_mem _ (ih standing mark member)

/-- A change is not seen on a way that does not lead through its place. -/
theorem trail_changeAt {change : Node → Node} {place names : List String} {node : Node}
    (unseen : ∀ rest found, names = place ++ rest → node.at? place = some found →
      (change found).trail rest = found.trail rest) :
    (node.changeAt change place).trail names = node.trail names := by
  induction place generalizing node names with
  | nil => exact unseen names node rfl rfl
  | cons name place ih =>
      cases node with
      | file file => rfl
      | directory access entries =>
          rw [changeAt_cons_directory]
          cases names with
          | nil => simp [trail, face, Roster.names_update]
          | cons first rest =>
              rw [trail, trail, Roster.names_update, Roster.get?_update]
              by_cases same : first = name
              · subst same
                rw [if_pos rfl]
                cases held : Roster.get? first entries with
                | none => rfl
                | some child =>
                    have later : (child.changeAt change place).trail rest = child.trail rest := by
                      refine ih fun onwards found whole standing => ?_
                      refine unseen onwards found (by rw [whole, List.cons_append]) ?_
                      rw [at?_cons_directory, held]
                      exact standing
                    simp only [Option.map_some, later]
              · rw [if_neg same]

end Node

namespace Directory

theorem face_put_of_get? {directory : Directory} {name : String} {old : Node}
    (held : directory.get? name = some old) (node : Node) :
    (directory.put name node).toNode.face = directory.toNode.face := by
  have known : name ∈ Roster.names directory.entries := by
    rw [← Roster.has_iff_mem_names, Roster.has, ← get?, held]
    rfl
  simp only [toNode, Node.face, put, Roster.names_put, if_pos known]

/-- Other content in a file is seen only by those whose way ends at the file. -/
theorem trail_put_file {directory : Directory} {name : String} {file : File}
    (held : directory.get? name = some (.file file)) (other : File) {rest : List String}
    (elsewhere : rest ≠ [name]) :
    (directory.put name (.file other)).toNode.trail rest = directory.toNode.trail rest := by
  cases rest with
  | nil =>
      rw [Node.trail, Node.trail, face_put_of_get? held]
  | cons first rest =>
      rw [Node.trail_cons_toNode, Node.trail_cons_toNode, face_put_of_get? held]
      by_cases same : first = name
      · subst same
        rw [get?_put_self, held]
        cases rest with
        | nil => exact absurd rfl elsewhere
        | cons next onwards => rfl
      · rw [get?_put_of_ne same]

end Directory

namespace Node

/--
Whether a user neither owns nor may write the directories on the way to a place, nor what stands
there, if anything does.
-/
def Shielded (user : String) (names : List String) (node : Node) : Prop :=
  ∀ before found, before <+: names → node.at? before = some found →
    found.isDirectory = true ∨ before = names → found.access.Beyond user

theorem shielded_nil_iff {user : String} {node : Node} :
    node.Shielded user [] ↔ node.access.Beyond user := by
  constructor
  · intro shielded
    exact shielded [] node List.nil_prefix rfl (Or.inr rfl)
  · intro beyond before found known standing _
    rw [List.prefix_nil.1 known, at?_nil] at standing
    cases standing
    exact beyond

theorem shielded_cons_file (user name : String) (rest : List String) (file : File) :
    (Node.file file).Shielded user (name :: rest) := by
  intro before found known standing which
  cases before with
  | nil =>
      cases standing
      rcases which with isDirectory | whole
      · cases isDirectory
      · cases whole
  | cons first onwards => cases standing

theorem shielded_cons_directory_iff {user name : String} {rest : List String} {access : Access}
    {entries : List (String × Node)} :
    (Node.directory access entries).Shielded user (name :: rest) ↔
      access.Beyond user ∧
        ∀ child, Roster.get? name entries = some child → child.Shielded user rest := by
  constructor
  · intro shielded
    refine ⟨shielded [] _ List.nil_prefix rfl (Or.inl rfl), ?_⟩
    intro child held before found known standing which
    refine shielded (name :: before) found (List.cons_prefix_cons.2 ⟨rfl, known⟩) ?_ ?_
    · rw [at?_cons_directory, held]
      exact standing
    · rcases which with isDirectory | whole
      · exact Or.inl isDirectory
      · exact Or.inr (by rw [whole])
  · rintro ⟨beyond, onwards⟩ before found known standing which
    cases before with
    | nil =>
        cases standing
        exact beyond
    | cons first before =>
        obtain ⟨rfl, later⟩ := List.cons_prefix_cons.1 known
        rw [at?_cons_directory, Option.bind_eq_some_iff] at standing
        obtain ⟨child, held, standing⟩ := standing
        refine onwards child held before found later standing ?_
        rcases which with isDirectory | whole
        · exact Or.inl isDirectory
        · exact Or.inr (List.cons.inj whole).2

instance shieldedDecidable (user : String) :
    ∀ (names : List String) (node : Node), Decidable (node.Shielded user names)
  | [], _ => decidable_of_iff _ shielded_nil_iff.symm
  | name :: rest, .file f => .isTrue (shielded_cons_file user name rest f)
  | name :: rest, .directory access entries =>
      have := shieldedDecidable user rest
      decidable_of_iff
        (access.Beyond user ∧ ∀ child ∈ Roster.get? name entries, child.Shielded user rest)
        shielded_cons_directory_iff.symm

theorem Shielded.beyond {user : String} {names : List String} {node : Node}
    (shielded : node.Shielded user names) : ∀ mark ∈ node.trail names, mark.Beyond user := by
  induction names generalizing node with
  | nil =>
      intro mark member
      rw [trail, List.mem_singleton] at member
      subst member
      have here := shielded_nil_iff.1 shielded
      cases node with
      | file file => exact here
      | directory access entries => exact here
  | cons name rest ih =>
      cases node with
      | file file =>
          intro mark member
          rw [trail, List.mem_singleton] at member
          subst member
          trivial
      | directory access entries =>
          obtain ⟨beyond, onwards⟩ := shielded_cons_directory_iff.1 shielded
          intro mark member
          rw [trail] at member
          rcases List.mem_cons.1 member with here | later
          · subst here
            exact beyond
          · cases held : Roster.get? name entries with
            | none =>
                rw [held, List.mem_singleton] at later
                subst later
                trivial
            | some child =>
                rw [held] at later
                exact ih (onwards child held) mark later

end Node

namespace Tree

variable {tree after : Tree} {user : String} {names : List String}

/-- A directory that may be written is not on the way to a shielded place. -/
theorem false_of_permits (beyond : ∀ mark ∈ tree.root.trail names, mark.Beyond user)
    {parent : String} {directory : Directory} (found : tree.directory parent = .ok directory)
    (permitted : directory.access.permits user .write = true) {rest : List String}
    (whole : names = Path.segments parent ++ rest) : False := by
  subst whole
  have seen := Node.trail_subset_of_at? (directory_eq_ok_iff.1 found) _
    (Node.face_mem_trail directory rest)
  have shown : directory.access.Beyond user := beyond _ seen
  exact shown.not_permitted permitted

/-- An entry of a directory that may be written can be changed without being seen. -/
theorem trail_changeDirectory (beyond : ∀ mark ∈ tree.root.trail names, mark.Beyond user)
    {parent : String} {directory : Directory} (found : tree.directory parent = .ok directory)
    (permitted : directory.access.permits user .write = true)
    (change : Directory → Directory) :
    (tree.changeDirectory parent change).root.trail names = tree.root.trail names := by
  rw [root_changeDirectory]
  refine Node.trail_changeAt fun rest node whole standing => ?_
  exact (false_of_permits beyond found permitted whole).elim

/-- No edit that a user is entitled to is seen on a way where everything is beyond the user. -/
theorem Edit.trail (notRoot : user ≠ rootUser)
    (beyond : ∀ mark ∈ tree.root.trail names, mark.Beyond user) (edit : Edit user tree after) :
    after.root.trail names = tree.root.trail names := by
  cases edit with
  | enter node found permitted free => exact trail_changeDirectory beyond found permitted _
  | supplant node found allowed =>
      exact trail_changeDirectory beyond found (Directory.permits_of_mayDrop allowed) _
  | drop found allowed =>
      exact trail_changeDirectory beyond found (Directory.permits_of_mayDrop allowed) _
  | @overwrite parent name directory file content found held permitted =>
      rw [root_changeDirectory]
      refine Node.trail_changeAt fun rest node whole standing => ?_
      have atParent := directory_eq_ok_iff.1 found
      rw [atParent] at standing
      cases standing
      rw [Node.mapDirectory_toNode]
      refine Directory.trail_put_file held _ ?_
      -- The way cannot end at the file, for then the file itself would be seen.
      rintro rfl
      subst whole
      have passed : Node.Mark.face (.file file) ∈ directory.toNode.trail [name] := by
        rw [Node.trail_cons_toNode, held]
        exact List.mem_cons_of_mem _ List.mem_cons_self
      have shown : file.access.Beyond user :=
        beyond (.face (.file file)) (Node.trail_subset_of_at? atParent _ passed)
      exact shown.not_permitted permitted
  | @remode path node mode found owned =>
      rw [root_changeAt]
      refine Node.trail_changeAt fun rest standing whole there => ?_
      have atPath := lookup_eq_ok_iff.1 found
      rw [atPath] at there
      cases there
      have owner : node.access.owner = user := owned.resolve_left notRoot
      subst whole
      have seen : ∀ mark ∈ node.trail rest, mark ∈ tree.root.trail (Path.segments path ++ rest) :=
        Node.trail_subset_of_at? atPath
      cases node with
      | file file =>
          cases rest with
          | nil =>
              have shown : file.access.Beyond user :=
                beyond _ (seen (.face (.file file)) (List.mem_singleton.2 rfl))
              exact absurd owner shown.1
          | cons first rest => rfl
      | directory access entries =>
          have shown : access.Beyond user :=
            beyond _ (seen _ (Node.face_mem_trail ⟨access, entries⟩ rest))
          exact absurd owner shown.1

theorem Edits.trail (notRoot : user ≠ rootUser)
    (beyond : ∀ mark ∈ tree.root.trail names, mark.Beyond user) (edits : Edits user tree after) :
    after.root.trail names = tree.root.trail names := by
  induction edits with
  | refl => rfl
  | tail before edit ih =>
      have still := edit.trail notRoot (by rw [ih]; exact beyond)
      exact still.trans ih

theorem Cover.trail {place : List String}
    (beyond : ∀ mark ∈ tree.root.trail names, mark.Beyond user)
    (cover : Cover user place tree after) : after.root.trail names = tree.root.trail names := by
  obtain ⟨parent, name, directory, file, node, -, found, permitted, -, -, rfl⟩ := cover.covered
  exact trail_changeDirectory beyond found permitted _

end Tree

/-- No request of a user is seen on a way where everything is beyond the user. -/
theorem Operation.trail_perform {operation : Operation} (canonical : operation.Canonical)
    {oracle : ContentOracle} {user : String} (notRoot : user ≠ rootUser) {names : List String}
    {tree : Tree} (beyond : ∀ mark ∈ tree.root.trail names, mark.Beyond user) :
    (operation.perform oracle user tree).2.root.trail names = tree.root.trail names := by
  rcases operation.perform_cases canonical oracle user tree with
    edits | ⟨source, target, recursive, final, -, -, cover⟩
  · exact edits.trail notRoot beyond
  · exact cover.trail beyond

namespace Tree

def Shielded (tree : Tree) (user path : String) : Prop :=
  tree.root.Shielded user (Path.segments path)

instance (tree : Tree) (user path : String) : Decidable (tree.Shielded user path) :=
  inferInstanceAs (Decidable (tree.root.Shielded user (Path.segments path)))

/--
Whatever sequence of requests a user makes, a path that is shielded from them leads nowhere if it
led nowhere, to the same file if it led to a file, and otherwise to a directory with the same
permissions and owners and the same names in it.
-/
theorem lookup_face_run_of_shielded {oracle : ContentOracle} {user : String}
    (notRoot : user ≠ rootUser) {tree : Tree} {path : String} (shielded : tree.Shielded user path)
    {operations : List Operation} (canonical : ∀ operation ∈ operations, operation.Canonical) :
    ((run oracle user operations tree).2.lookup path).map Node.face =
      (tree.lookup path).map Node.face := by
  have beyond := shielded.beyond
  have kept : (run oracle user operations tree).2.root.trail (Path.segments path) =
      tree.root.trail (Path.segments path) := by
    refine run_preserves
      (fun left => left.root.trail (Path.segments path) = tree.root.trail (Path.segments path))
      (fun operation before allowed same => ?_) canonical rfl
    exact (operation.trail_perform allowed notRoot (by rw [same]; exact beyond)).trans same
  exact Node.follow_face_of_trail kept

def takeover : List Operation :=
  [.chmod "/etc" "777", .rename "/etc" "/tmp/etc", .copy "/etc" "/tmp" true,
   .copy "/tmp/etc/passwd" "/etc/passwd" false, .write "/etc/passwd" (.inline "guest::0:0"),
   .remove "/etc" true]

theorem lookup_face_takeover :
    "guest" ≠ rootUser ∧ (World.standard .default).Shielded "guest" "/etc/passwd" ∧
      (∀ operation ∈ takeover, operation.Canonical) ∧
      ((run (fun _ => .ok "") "guest" takeover (World.standard .default)).2.lookup
          "/etc/passwd").map Node.face =
        ((World.standard .default).lookup "/etc/passwd").map Node.face :=
  ⟨by decide, by decide, by decide,
    lookup_face_run_of_shielded (by decide) (by decide) (by decide)⟩

end Tree

end PuzzleShell

import PuzzleShell.Proofs.Tree.Place

/-!
# Trees that a user cannot tell apart

Two trees are alike for a user if they differ at most in the texts of files that the user neither
owns nor may read.  Such texts have the same size, since a listing shows it to everyone.
-/

namespace PuzzleShell

namespace Node

mutual

/-- Two nodes are the same but for texts that a user has no part in. -/
inductive Alike (user : String) : Node → Node → Prop where
  | same (file : File) : Alike user (.file file) (.file file)
  | hidden {access : Access} (size : Option Nat) {text other : String}
      (foreign : access.owner ≠ user) (denied : access.permits user .read = false)
      (sized : text.utf8ByteSize = other.utf8ByteSize) :
      Alike user (.file ⟨access, .inline text, size⟩) (.file ⟨access, .inline other, size⟩)
  | directory (access : Access) {entries others : List (String × Node)}
      (inside : EntriesAlike user entries others) :
      Alike user (.directory access entries) (.directory access others)

inductive EntriesAlike (user : String) : List (String × Node) → List (String × Node) → Prop where
  | nil : EntriesAlike user [] []
  | cons (name : String) {node other : Node} {rest others : List (String × Node)}
      (first : Alike user node other) (later : EntriesAlike user rest others) :
      EntriesAlike user ((name, node) :: rest) ((name, other) :: others)

end

mutual

theorem Alike.refl (user : String) : ∀ node, Alike user node node
  | .file f => .same f
  | .directory access entries => .directory access (EntriesAlike.refl user entries)

theorem EntriesAlike.refl (user : String) : ∀ entries, EntriesAlike user entries entries
  | [] => .nil
  | (name, node) :: rest => .cons name (Alike.refl user node) (EntriesAlike.refl user rest)

end

variable {user : String}

theorem Alike.access_eq {node other : Node} (alike : Alike user node other) :
    node.access = other.access := by
  cases alike <;> rfl

theorem Alike.isDirectory_eq {node other : Node} (alike : Alike user node other) :
    node.isDirectory = other.isDirectory := by
  cases alike <;> rfl

namespace EntriesAlike

variable {entries others : List (String × Node)} {name : String}

theorem get? (alike : EntriesAlike user entries others) :
    Option.Rel (Alike user) (Roster.get? name entries) (Roster.get? name others) := by
  induction entries generalizing others with
  | nil =>
      cases alike
      exact .none
  | cons entry rest ih =>
      cases alike with
      | cons known first later =>
          rw [Roster.get?_cons, Roster.get?_cons]
          split
          · exact .some first
          · exact ih later

/-- Under a name both rosters have nothing, or nodes that are alike. -/
theorem get?_cases (alike : EntriesAlike user entries others) (name : String) :
    (Roster.get? name entries = none ∧ Roster.get? name others = none) ∨
      ∃ node other, Roster.get? name entries = some node ∧ Roster.get? name others = some other ∧
        Alike user node other := by
  have entered : Option.Rel (Alike user) (Roster.get? name entries) (Roster.get? name others) :=
    alike.get?
  generalize Roster.get? name entries = held at entered ⊢
  generalize Roster.get? name others = kept at entered ⊢
  cases entered with
  | none => exact Or.inl ⟨rfl, rfl⟩
  | some together => exact Or.inr ⟨_, _, rfl, rfl, together⟩

theorem put {node other : Node} (alike : EntriesAlike user entries others)
    (entered : Alike user node other) :
    EntriesAlike user (Roster.put name node entries) (Roster.put name other others) := by
  induction entries generalizing others with
  | nil =>
      cases alike
      exact .cons name entered .nil
  | cons entry rest ih =>
      cases alike with
      | cons known first later =>
          unfold Roster.put
          split
          · exact .cons known entered later
          · exact .cons known first (ih later)

theorem drop (alike : EntriesAlike user entries others) :
    EntriesAlike user (Roster.drop name entries) (Roster.drop name others) := by
  induction entries generalizing others with
  | nil =>
      cases alike
      exact .nil
  | cons entry rest ih =>
      cases alike with
      | cons known first later =>
          unfold Roster.drop
          split
          · exact later
          · exact .cons known first (ih later)

theorem update {change another : Node → Node} (alike : EntriesAlike user entries others)
    (step : ∀ node other, Roster.get? name entries = some node →
      Roster.get? name others = some other → Alike user node other →
        Alike user (change node) (another other)) :
    EntriesAlike user (Roster.update name change entries) (Roster.update name another others) := by
  induction entries generalizing others with
  | nil =>
      cases alike
      exact .nil
  | cons entry rest ih =>
      cases alike with
      | @cons known node other rest others first later =>
          simp only [Roster.get?_cons] at step
          unfold Roster.update
          split
          next same =>
            rw [if_pos same.symm, if_pos same.symm] at step
            exact .cons known (step node other rfl rfl first) later
          next different =>
            rw [if_neg (Ne.symm different), if_neg (Ne.symm different)] at step
            exact .cons known first (ih later step)

theorem update_self {change : Node → Node}
    (step : ∀ node, Roster.get? name entries = some node → Alike user node (change node)) :
    EntriesAlike user entries (Roster.update name change entries) := by
  induction entries with
  | nil => exact .nil
  | cons entry rest ih =>
      obtain ⟨known, node⟩ := entry
      simp only [Roster.get?_cons] at step
      unfold Roster.update
      split
      next same =>
        rw [if_pos same.symm] at step
        exact .cons known (step node rfl) (EntriesAlike.refl user rest)
      next different =>
        rw [if_neg (Ne.symm different)] at step
        exact .cons known (Alike.refl user node) (ih step)

end EntriesAlike

/-- What stands at a place is alike, if anything does. -/
theorem Alike.at? {node other : Node} (alike : Alike user node other) (names : List String) :
    Option.Rel (Alike user) (node.at? names) (other.at? names) := by
  induction names generalizing node other with
  | nil => exact .some alike
  | cons name rest ih =>
      cases alike with
      | same f => exact .none
      | hidden size foreign denied sized => exact .none
      | @directory access entries others inside =>
          rw [at?_cons_directory, at?_cons_directory]
          obtain ⟨here, there⟩ | ⟨_, _, here, there, first⟩ := inside.get?_cases name
          · rw [here, there]
            exact .none
          · rw [here, there]
            exact ih first

/-- Following a path ends alike. -/
theorem Alike.follow {node other : Node} (alike : Alike user node other) (path : String)
    (names : List String) :
    EndAlike (Alike user) (node.follow path names) (other.follow path names) := by
  induction names generalizing node other with
  | nil => exact .ok alike
  | cons name rest ih =>
      cases alike with
      | same f => exact .error _
      | hidden size foreign denied sized => exact .error _
      | @directory access entries others inside =>
          rw [Node.follow, Node.follow]
          obtain ⟨here, there⟩ | ⟨_, _, here, there, first⟩ := inside.get?_cases name
          · rw [here, there]
            exact .error _
          · rw [here, there]
            exact ih first

/-- Changes that are alike at their place are alike as a whole. -/
theorem Alike.changeAt {node other : Node} {change another : Node → Node} {names : List String}
    (alike : Alike user node other)
    (step : ∀ found seen, node.at? names = some found → other.at? names = some seen →
      Alike user found seen → Alike user (change found) (another seen)) :
    Alike user (node.changeAt change names) (other.changeAt another names) := by
  induction names generalizing node other with
  | nil => exact step node other rfl rfl alike
  | cons name rest ih =>
      cases alike with
      | same f => exact .same f
      | hidden size foreign denied sized => exact .hidden size foreign denied sized
      | directory access inside =>
          refine .directory access (inside.update fun inner outer held kept related => ?_)
          refine ih related fun found seen standing too below => ?_
          refine step found seen ?_ ?_ below
          · rw [at?_cons_directory, held]
            exact standing
          · rw [at?_cons_directory, kept]
            exact too

/-- A change at a place leaves the whole alike, if it leaves alike what stands there. -/
theorem alike_changeAt_self {node : Node} {change : Node → Node} {names : List String}
    (step : ∀ found, node.at? names = some found → Alike user found (change found)) :
    Alike user node (node.changeAt change names) := by
  induction names generalizing node with
  | nil => exact step node rfl
  | cons name rest ih =>
      cases node with
      | file f => exact .same f
      | directory access entries =>
          refine .directory access (EntriesAlike.update_self fun inner held => ?_)
          refine ih fun found below => ?_
          refine step found ?_
          rw [at?_cons_directory, held]
          exact below

end Node

structure Directory.Alike (user : String) (directory other : Directory) : Prop where
  access : directory.access = other.access
  entries : Node.EntriesAlike user directory.entries other.entries

namespace Directory.Alike

variable {user : String} {directory other : Directory}

theorem toNode (alike : Directory.Alike user directory other) :
    Node.Alike user directory.toNode other.toNode := by
  obtain ⟨access, entries⟩ := directory
  obtain ⟨same, others⟩ := other
  obtain ⟨rfl, inside⟩ := alike
  exact .directory access inside

/-- Under a name both directories have nothing, or nodes that are alike. -/
theorem get?_cases (alike : Directory.Alike user directory other) (name : String) :
    (directory.get? name = none ∧ other.get? name = none) ∨
      ∃ node found, directory.get? name = some node ∧ other.get? name = some found ∧
        Node.Alike user node found :=
  alike.entries.get?_cases name

theorem put {node entered : Node} (alike : Directory.Alike user directory other) (name : String)
    (together : Node.Alike user node entered) :
    Directory.Alike user (directory.put name node) (other.put name entered) :=
  ⟨alike.access, alike.entries.put together⟩

theorem drop (alike : Directory.Alike user directory other) (name : String) :
    Directory.Alike user (directory.drop name) (other.drop name) :=
  ⟨alike.access, alike.entries.drop⟩

theorem has_eq (alike : Directory.Alike user directory other) (name : String) :
    directory.has name = other.has name := by
  unfold Directory.has Roster.has
  obtain ⟨here, there⟩ | ⟨_, _, here, there, _⟩ := alike.entries.get?_cases name
  · rw [here, there]
  · rw [here, there]
    rfl

theorem mayDrop_eq (alike : Directory.Alike user directory other) (name : String) :
    directory.mayDrop name user = other.mayDrop name user := by
  unfold Directory.mayDrop
  rw [alike.access]
  obtain ⟨here, there⟩ | ⟨_, _, here, there, together⟩ := alike.get?_cases name
  · rw [here, there]
  · rw [here, there]
    simp only [together.access_eq]

end Directory.Alike

theorem Node.Alike.mapDirectory {user : String} {node other : Node}
    {change another : Directory → Directory} (alike : Node.Alike user node other)
    (step : ∀ directory too, Directory.Alike user directory too →
      Directory.Alike user (change directory) (another too)) :
    Node.Alike user (node.mapDirectory change) (other.mapDirectory another) := by
  cases alike with
  | same f => exact .same f
  | hidden size foreign denied sized => exact .hidden size foreign denied sized
  | @directory access entries others inside =>
      exact (step ⟨access, entries⟩ ⟨access, others⟩ ⟨rfl, inside⟩).toNode

/-- Two trees are the same but for texts that a user has no part in. -/
def Tree.Alike (user : String) (tree other : Tree) : Prop :=
  Node.Alike user tree.root other.root

namespace Tree.Alike

variable {user : String} {tree other : Tree}

theorem lookup (alike : Tree.Alike user tree other) (path : String) :
    EndAlike (Node.Alike user) (tree.lookup path) (other.lookup path) :=
  Node.Alike.follow alike path (Path.segments path)

theorem directory (alike : Tree.Alike user tree other) (path : String) :
    EndAlike (Directory.Alike user) (tree.directory path) (other.directory path) := by
  refine (alike.lookup path).bind fun node found related => ?_
  cases related with
  | same f => exact .error _
  | hidden size foreign denied sized => exact .error _
  | directory access inside => exact .ok ⟨rfl, inside⟩

theorem has_eq (alike : Tree.Alike user tree other) (path : String) :
    tree.has path = other.has path := by
  have found := alike.lookup path
  unfold Tree.has
  generalize tree.lookup path = left at found ⊢
  generalize other.lookup path = right at found ⊢
  cases found <;> rfl

theorem hasDirectory_eq (alike : Tree.Alike user tree other) (path : String) :
    tree.hasDirectory path = other.hasDirectory path := by
  have found := alike.lookup path
  unfold Tree.hasDirectory
  generalize tree.lookup path = left at found ⊢
  generalize other.lookup path = right at found ⊢
  cases found with
  | error fault => rfl
  | ok related => cases related <;> rfl

theorem changeDirectory {change another : Directory → Directory}
    (alike : Tree.Alike user tree other) (path : String)
    (step : ∀ directory too, Directory.Alike user directory too →
      Directory.Alike user (change directory) (another too)) :
    Tree.Alike user (tree.changeDirectory path change) (other.changeDirectory path another) :=
  Node.Alike.changeAt alike fun _ _ _ _ related => related.mapDirectory step

/-- The same entry under a name on both sides keeps trees alike. -/
theorem put {node entered : Node} (alike : Tree.Alike user tree other) (path name : String)
    (together : Node.Alike user node entered) :
    Tree.Alike user (tree.changeDirectory path (·.put name node))
      (other.changeDirectory path (·.put name entered)) :=
  alike.changeDirectory path fun _ _ related => related.put name together

theorem drop (alike : Tree.Alike user tree other) (path name : String) :
    Tree.Alike user (tree.changeDirectory path (·.drop name))
      (other.changeDirectory path (·.drop name)) :=
  alike.changeDirectory path fun _ _ related => related.drop name

end Tree.Alike

end PuzzleShell

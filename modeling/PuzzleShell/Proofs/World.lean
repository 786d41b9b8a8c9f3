import PuzzleShell.Proofs.Tree.WellFormed
import PuzzleShell.World

/-!
# The worlds

Both worlds are well formed.  They can be planted entry by entry, parents before children, from
permission strings: none of the entries is refused, and its directory lists them in that order.
-/

namespace PuzzleShell

inductive Seed where
  | directory
  | file (content : Content) (size : Option Nat)

def Seed.node (mode : Mode) (owner : String) : Seed → Node
  | .directory => .newDirectory mode owner
  | .file content size => .newFile mode owner content size

structure Planting where
  parent : String
  name : String
  permissions : String
  owner : String
  seed : Seed

def Planting.text (parent name permissions owner text : String) : Planting :=
  ⟨parent, name, permissions, owner, .file (.inline text) none⟩

/-- Plant entries one after another, as long as their permissions can be read. -/
def Tree.plant (tree : Tree) (plantings : List Planting) : Except Fault Tree :=
  plantings.foldlM (fun tree planting => do
    let mode ← Mode.parse planting.permissions
    tree.insert planting.parent planting.name (planting.seed.node mode planting.owner)) tree

/-- A node is entered into the directory that the path leads to. -/
theorem Tree.insert_eq (tree : Tree) (parent name : String) (node : Node) :
    tree.insert parent name node =
      match tree.root.follow parent (Path.segments parent) with
      | .error fault => .error fault
      | .ok (.file _) => .error (.notADirectory parent)
      | .ok (.directory _ _) => .ok (tree.changeDirectory parent (·.put name node)) := by
  unfold insert directory lookup
  rcases tree.root.follow parent (Path.segments parent) with fault | file | ⟨access, entries⟩ <;>
    rfl

theorem Tree.plant_nil (tree : Tree) : tree.plant [] = .ok tree := rfl

/-- The first of the entries is planted, and then the others are. -/
theorem Tree.plant_cons (tree : Tree) (planting : Planting) (rest : List Planting) :
    tree.plant (planting :: rest) =
      match Mode.parse planting.permissions with
      | .error fault => .error fault
      | .ok mode =>
          match tree.insert planting.parent planting.name
            (planting.seed.node mode planting.owner) with
          | .error fault => .error fault
          | .ok planted => planted.plant rest := by
  rw [plant, List.foldlM_cons]
  cases Mode.parse planting.permissions with
  | error fault => rfl
  | ok mode =>
      simp only [bind, Except.bind]
      cases tree.insert planting.parent planting.name (planting.seed.node mode planting.owner) <;>
        rfl

namespace World

/-- A seeded directory is well formed if its names, which are spelled out, are valid and differ. -/
theorem wellFormed_directory {mode : Mode} {user : String} {entries : List (String × Node)}
    (names : List String) (spelled : Roster.names entries = names)
    (proper : names.Nodup ∧ Path.Valid names)
    (below : (entries.map (·.2)).Forall Node.WellFormed) :
    (directory mode user entries).WellFormed := by
  refine .directory (spelled ▸ proper.1) (spelled ▸ proper.2) fun entry member => ?_
  exact List.forall_iff_forall_mem.1 below entry.2 (List.mem_map_of_mem member)

theorem wellFormed_newText (mode : Mode) (user text : String) :
    (Node.newText mode user text).WellFormed :=
  .file (.inline text)

theorem wellFormed_guestHome : guestHome.WellFormed :=
  wellFormed_directory ["README.txt", ".notes", ".ssh"] rfl (by decide)
    ⟨wellFormed_newText _ _ _, wellFormed_newText _ _ _,
      wellFormed_directory ["id_rsa"] rfl (by decide) (wellFormed_newText _ _ _)⟩

theorem wellFormed_operatorHome : operatorHome.WellFormed := by
  have packs : (Content.archive backup).WellFormed := by
    rintro entries (_ | ⟨_, ⟨⟩⟩)
    decide
  exact wellFormed_directory ["backup.zip"] rfl (by decide) (Node.WellFormed.file packs)

theorem wellFormed_standard (config : Config) : (standard config).WellFormed where
  root := rfl
  nodes :=
    wellFormed_directory ["home", "var", "etc", "tmp"] rfl (by decide)
      ⟨wellFormed_directory ["guest", "operator"] rfl (by decide)
        ⟨wellFormed_guestHome, wellFormed_operatorHome⟩,
       wellFormed_directory ["log"] rfl (by decide)
        (wellFormed_directory ["auth.log"] rfl (by decide) (wellFormed_newText _ _ _)),
       wellFormed_directory ["passwd", "shadow", "hostname"] rfl (by decide)
        ⟨wellFormed_newText _ _ _, wellFormed_newText _ _ _, wellFormed_newText _ _ _⟩,
       wellFormed_directory ["report.txt"] rfl (by decide) (wellFormed_newText _ _ _)⟩

theorem wellFormed_deep : deep.WellFormed := by
  have flag : (Content.secure deepFlagId).WellFormed :=
    fun entries member => (List.not_mem_nil member).elim
  exact
    ⟨rfl,
      wellFormed_directory ["root", "var"] rfl (by decide)
        ⟨wellFormed_directory ["flag.txt", "README"] rfl (by decide)
          ⟨.file flag, wellFormed_newText _ _ _⟩,
         wellFormed_directory ["core"] rfl (by decide)
          (wellFormed_directory ["manifest"] rfl (by decide) (wellFormed_newText _ _ _))⟩⟩

def ground : Tree := .empty (.ownedBy .newDirectory rootUser)

def standardPlantings (config : Config) : List Planting :=
  [⟨"/", "home", "rwxr-xr-x", rootUser, .directory⟩,
   ⟨"/home", "guest", "rwxr-xr-x", "guest", .directory⟩,
   .text "/home/guest" "README.txt" "rw-r--r--" "guest" readme,
   .text "/home/guest" ".notes" "rw-------" "guest"
     "note to self: FLAG\x7bh1dd3n_1n_pl41n_s1ght\x7d",
   ⟨"/home/guest", ".ssh", "rwx------", "guest", .directory⟩,
   .text "/home/guest/.ssh" "id_rsa" "rw-------" "guest" decoyKey,
   ⟨"/home", "operator", "rwxr-x---", "operator", .directory⟩,
   ⟨"/home/operator", "backup.zip", "rw-r-----", "operator", .file (.archive backup) (some 1024)⟩,
   ⟨"/", "var", "rwxr-xr-x", rootUser, .directory⟩,
   ⟨"/var", "log", "rwxr-xr-x", rootUser, .directory⟩,
   .text "/var/log" "auth.log" "rw-r--r--" rootUser (authLog config),
   ⟨"/", "etc", "rwxr-xr-x", rootUser, .directory⟩,
   .text "/etc" "passwd" "rw-r--r--" rootUser users,
   .text "/etc" "shadow" "rw-------" rootUser "root:$6$Zq1x$redacted:19000:0:99999:7:::",
   .text "/etc" "hostname" "rw-r--r--" rootUser config.shell.hostname,
   ⟨"/", "tmp", "rwxrwxrwt", rootUser, .directory⟩,
   .text "/tmp" "report.txt" "rw-r--r--" "operator" "Q3 storage report: 98% full. Purge /tmp."]

def deepPlantings : List Planting :=
  [⟨"/", "root", "rwx------", rootUser, .directory⟩,
   ⟨"/root", "flag.txt", "rw-------", rootUser, .file (.secure deepFlagId) (some 64)⟩,
   .text "/root" "README" "rw-r--r--" rootUser deepReadme,
   ⟨"/", "var", "rwxr-xr-x", rootUser, .directory⟩,
   ⟨"/var", "core", "rwxr-xr-x", rootUser, .directory⟩,
   .text "/var/core" "manifest" "rw-r--r--" rootUser manifest]

/-- What the permission strings in both worlds spell. -/
theorem parse_permissions :
    Mode.parse "rwxr-xr-x" = .ok .newDirectory ∧ Mode.parse "rwx------" = .ok privateDirectory ∧
      Mode.parse "rw-r--r--" = .ok .newFile ∧ Mode.parse "rw-------" = .ok privateFile ∧
      Mode.parse "rwxr-x---" = .ok groupDirectory ∧ Mode.parse "rw-r-----" = .ok groupFile ∧
      Mode.parse "rwxrwxrwt" = .ok sharedDirectory := by
  decide

/-- The names on the ways to the directories in both worlds. -/
theorem segments_parents :
    Path.segments "/" = [] ∧ Path.segments "/home" = ["home"] ∧
      Path.segments "/home/guest" = ["home", "guest"] ∧
      Path.segments "/home/guest/.ssh" = ["home", "guest", ".ssh"] ∧
      Path.segments "/home/operator" = ["home", "operator"] ∧
      Path.segments "/var" = ["var"] ∧ Path.segments "/var/log" = ["var", "log"] ∧
      Path.segments "/etc" = ["etc"] ∧ Path.segments "/tmp" = ["tmp"] ∧
      Path.segments "/root" = ["root"] ∧ Path.segments "/var/core" = ["var", "core"] := by
  decide

/-- Whatever the settings are, planting the worlds succeeds. -/
theorem plant_worlds (config : Config) :
    ground.plant (standardPlantings config) = .ok (standard config) ∧
      ground.plant deepPlantings = .ok deep := by
  constructor <;>
    simp [ground, Tree.empty, standardPlantings, deepPlantings, Planting.text, parse_permissions,
      segments_parents, Tree.plant_cons, Tree.plant_nil, Tree.insert_eq, Node.follow,
      Roster.get?_cons, Tree.changeDirectory, Tree.changeAt, Node.changeAt, Roster.update,
      Directory.put, Roster.put, Directory.toNode, Seed.node, Node.newDirectory, Node.newFile,
      Node.newText, directory, standard, guestHome, operatorHome, deep]

end World

end PuzzleShell

import PuzzleShell.Proofs.Tree.Holdings

/-!
# Names that tell entries apart

A directory enters every name once, so a name tells its entries apart.  In such a directory what is
listed under a name is what is found there, and an entry that is taken out leaves nothing behind
under its name.  No operation enters a name twice.
-/

namespace PuzzleShell

namespace Roster

variable {α : Type} {name : String} {value : α} {roster : Roster α}

/-- Where every name is listed once, what is listed under a name is what is found under it. -/
theorem get?_of_mem (distinct : (names roster).Nodup) (member : (name, value) ∈ roster) :
    get? name roster = some value := by
  induction roster with
  | nil => cases member
  | cons entry rest ih =>
      obtain ⟨known, old⟩ := entry
      obtain ⟨first, later⟩ := List.nodup_cons.1 distinct
      rw [get?_cons]
      rcases List.mem_cons.1 member with same | below
      · obtain ⟨rfl, rfl⟩ := Prod.mk.inj same
        rw [if_pos rfl]
      · have different : name ≠ known := by
          rintro rfl
          exact first (List.mem_map.2 ⟨_, below, rfl⟩)
        rw [if_neg different]
        exact ih later below

theorem isSome_get?_iff : (get? name roster).isSome = true ↔ name ∈ names roster :=
  has_iff_mem_names

theorem get?_drop_self (distinct : (names roster).Nodup) : get? name (drop name roster) = none := by
  have gone : name ∉ names (drop name roster) := by
    rw [names_drop]
    exact distinct.not_mem_erase
  rw [← isSome_get?_iff] at gone
  simpa using gone

theorem nodup_names_put (distinct : (names roster).Nodup) :
    (names (put name value roster)).Nodup := by
  rw [names_put]
  split
  · exact distinct
  next new =>
    refine List.nodup_append.2 ⟨distinct, List.nodup_cons.2 ⟨List.not_mem_nil, .nil⟩, ?_⟩
    rintro known listed _ last rfl
    exact new (List.mem_singleton.1 last ▸ listed)

theorem nodup_names_drop (distinct : (names roster).Nodup) : (names (drop name roster)).Nodup := by
  rw [names_drop]
  exact distinct.erase name

end Roster

namespace Node

/-- A node in which no directory lists a name twice. -/
inductive Distinct : Node → Prop where
  | file (file : File) : Distinct (.file file)
  | directory {access : Access} {entries : List (String × Node)}
      (apart : (Roster.names entries).Nodup) (below : ∀ entry ∈ entries, Distinct entry.2) :
      Distinct (.directory access entries)

variable {node found new : Node} {place : List String} {name : String} {directory : Directory}
  {change : Node → Node}

namespace Distinct

theorem names (distinct : directory.toNode.Distinct) : (Roster.names directory.entries).Nodup := by
  cases distinct with
  | directory apart below => exact apart

theorem get? (distinct : directory.toNode.Distinct) (held : directory.get? name = some found) :
    found.Distinct := by
  cases distinct with
  | directory apart below => exact below _ (Roster.mem_of_get? held)

theorem at? (distinct : node.Distinct) (reached : node.at? place = some found) :
    found.Distinct := by
  induction place generalizing node with
  | nil =>
      cases reached
      exact distinct
  | cons name rest ih =>
      obtain ⟨directory, rfl, below⟩ := exists_directory_of_at?_cons reached
      obtain ⟨child, held, onwards⟩ := Option.bind_eq_some_iff.1 below
      exact ih (distinct.get? held) onwards

theorem changeAt (distinct : node.Distinct)
    (kept : ∀ old : Node, old.Distinct → (change old).Distinct) :
    (node.changeAt change place).Distinct := by
  induction place generalizing node with
  | nil => exact kept node distinct
  | cons name rest ih =>
      cases distinct with
      | file file => exact .file file
      | directory apart below =>
          rw [changeAt_cons_directory]
          refine .directory (by rwa [Roster.names_update]) fun entry member => ?_
          rcases Roster.mem_update member with before | ⟨child, held, rfl⟩
          · exact below entry before
          · exact ih (below _ (Roster.mem_of_get? held))

theorem put (distinct : directory.toNode.Distinct) (enters : new.Distinct) :
    (directory.put name new).toNode.Distinct := by
  cases distinct with
  | directory apart below =>
      refine .directory (Roster.nodup_names_put apart) fun entry member => ?_
      rcases Roster.mem_put member with rfl | before
      · exact enters
      · exact below entry before

theorem drop (distinct : directory.toNode.Distinct) :
    (directory.drop name).toNode.Distinct := by
  cases distinct with
  | directory apart below =>
      exact .directory (Roster.nodup_names_drop apart) fun entry member =>
        below entry (Roster.mem_drop member)

theorem withAccess (distinct : node.Distinct) (access : Access) :
    (node.withAccess access).Distinct := by
  cases distinct with
  | file file => exact .file _
  | directory apart below => exact .directory apart below

theorem newDirectory (mode : Mode) (user : String) : (newDirectory mode user).Distinct :=
  .directory List.nodup_nil fun _ member => (List.not_mem_nil member).elim

end Distinct

end Node

namespace Tree

def Distinct (tree : Tree) : Prop :=
  tree.root.Distinct

variable {tree : Tree} {path parent name user : String} {node : Node} {directory : Directory}

namespace Distinct

theorem of_directory (distinct : tree.Distinct) (found : tree.directory parent = .ok directory) :
    directory.toNode.Distinct :=
  Node.Distinct.at? distinct (directory_eq_ok_iff.1 found)

/-- An entry that is taken out leaves nothing behind. -/
theorem get?_drop_self (distinct : tree.Distinct)
    (found : tree.directory parent = .ok directory) : (directory.drop name).get? name = none :=
  Roster.get?_drop_self (distinct.of_directory found).names

theorem changeDirectory {change : Directory → Directory} (distinct : tree.Distinct)
    (kept : ∀ directory : Directory, directory.toNode.Distinct →
      (change directory).toNode.Distinct) :
    (tree.changeDirectory parent change).Distinct := by
  refine Node.Distinct.changeAt distinct fun old before => ?_
  cases old with
  | file file => exact before
  | directory access entries => exact kept ⟨access, entries⟩ before

theorem enter (distinct : tree.Distinct) (enters : node.Distinct) :
    (tree.changeDirectory parent (·.put name node)).Distinct :=
  distinct.changeDirectory fun _ before => before.put enters

theorem leave (distinct : tree.Distinct) :
    (tree.changeDirectory parent (·.drop name)).Distinct :=
  distinct.changeDirectory fun _ before => before.drop

theorem mkdir (distinct : tree.Distinct) : (tree.mkdir path user).2.Distinct :=
  mkdir_keeps Distinct distinct fun _ _ _ _ _ _ _ => distinct.enter (.newDirectory _ _)

theorem touch (distinct : tree.Distinct) : (tree.touch path user).2.Distinct :=
  touch_keeps Distinct distinct fun _ _ _ _ _ _ _ => distinct.enter (.file _)

theorem write (distinct : tree.Distinct) (content : Content) :
    (tree.write path content user).2.Distinct :=
  write_keeps Distinct distinct (fun _ _ _ _ _ _ _ _ => distinct.enter (.file _))
    fun _ _ _ _ _ _ _ => distinct.enter (.file _)

theorem remove (distinct : tree.Distinct) (recursive : Bool) :
    (tree.remove path user recursive).2.Distinct :=
  remove_keeps Distinct distinct fun _ _ _ _ _ _ => distinct.leave

theorem chmod (distinct : tree.Distinct) (spec : String) :
    (tree.chmod path spec user).2.Distinct :=
  chmod_keeps Distinct distinct fun _ _ _ _ =>
    Node.Distinct.changeAt distinct fun _ before => before.withAccess _

end Distinct

end Tree

end PuzzleShell

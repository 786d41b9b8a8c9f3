import PuzzleShell.Proofs.Tree.Distinct
import PuzzleShell.Proofs.Tree.Provenance

/-!
# Well-formed trees

A tree is well formed if its root is a directory, if in every directory no two entries share a name
and every name is a valid one, and if the names that are packed in its archives are valid too.  An
operation keeps a tree well formed if the paths that it is given are canonical and what it writes
is well formed itself: every name that is new to a directory is the last one of such a path.
-/

namespace PuzzleShell

namespace Content

/-- A content whose archives, one inside of another, pack nothing but valid names. -/
def WellFormed (content : Content) : Prop :=
  ∀ entries ∈ content.archives, Path.Valid (Roster.names entries)

variable {packed : List (String × Content)} {entry : String × Content}

theorem WellFormed.inline (text : String) : (inline text).WellFormed :=
  fun _ member => (List.not_mem_nil member).elim

theorem WellFormed.valid (wellFormed : (archive packed).WellFormed) :
    Path.Valid (Roster.names packed) :=
  wellFormed packed List.mem_cons_self

theorem WellFormed.of_mem (wellFormed : (archive packed).WellFormed) (member : entry ∈ packed) :
    entry.2.WellFormed :=
  fun inner packs =>
    wellFormed inner (List.mem_cons_of_mem _ (archives_subset_of_mem member packs))

end Content

namespace Node

inductive WellFormed : Node → Prop where
  | file {file : File} (packs : file.content.WellFormed) : WellFormed (.file file)
  | directory {access : Access} {entries : List (String × Node)}
      (distinct : (Roster.names entries).Nodup) (valid : Path.Valid (Roster.names entries))
      (below : ∀ entry ∈ entries, WellFormed entry.2) : WellFormed (.directory access entries)

variable {node found new : Node} {place : List String} {name : String} {directory : Directory}
  {change : Node → Node}

namespace WellFormed

theorem get? (wellFormed : directory.toNode.WellFormed) (held : directory.get? name = some found) :
    found.WellFormed := by
  cases wellFormed with
  | directory distinct valid below => exact below _ (Roster.mem_of_get? held)

theorem distinct (wellFormed : node.WellFormed) : node.Distinct := by
  induction wellFormed with
  | file packs => exact .file _
  | directory apart valid below ih => exact .directory apart ih

theorem at? (wellFormed : node.WellFormed) (reached : node.at? place = some found) :
    found.WellFormed := by
  induction place generalizing node with
  | nil =>
      cases reached
      exact wellFormed
  | cons name rest ih =>
      obtain ⟨directory, rfl, below⟩ := exists_directory_of_at?_cons reached
      obtain ⟨child, held, onwards⟩ := Option.bind_eq_some_iff.1 below
      exact ih (wellFormed.get? held) onwards

/-- A change at a place keeps a node well formed if it does so with whatever stands there. -/
theorem changeAt (wellFormed : node.WellFormed)
    (kept : ∀ old : Node, old.WellFormed → (change old).WellFormed) :
    (node.changeAt change place).WellFormed := by
  induction place generalizing node with
  | nil => exact kept node wellFormed
  | cons name rest ih =>
      cases wellFormed with
      | file packs => exact .file packs
      | directory distinct valid below =>
          rw [changeAt_cons_directory]
          refine .directory ?_ ?_ fun entry member => ?_
          · rwa [Roster.names_update]
          · rwa [Roster.names_update]
          · rcases Roster.mem_update member with before | ⟨child, held, rfl⟩
            · exact below entry before
            · exact ih (below _ (Roster.mem_of_get? held))

/-- An entry with a valid name keeps the names of a directory apart, whether it is new or not. -/
theorem put (wellFormed : directory.toNode.WellFormed) (named : Path.isName name = true)
    (enters : new.WellFormed) : (directory.put name new).toNode.WellFormed := by
  cases wellFormed with
  | directory distinct valid below =>
      refine .directory (Roster.nodup_names_put distinct) ?_ fun entry member => ?_
      · rw [Directory.put, Roster.names_put]
        split
        · exact valid
        · exact valid.append (by simpa [Path.Valid] using named)
      rcases Roster.mem_put member with rfl | before
      · exact enters
      · exact below entry before

theorem drop (wellFormed : directory.toNode.WellFormed) :
    (directory.drop name).toNode.WellFormed := by
  cases wellFormed with
  | directory distinct valid below =>
      refine .directory (Roster.nodup_names_drop distinct) ?_ fun entry member =>
        below entry (Roster.mem_drop member)
      rw [Directory.drop, Roster.names_drop]
      exact fun other member => valid other (List.mem_of_mem_erase member)

theorem withAccess (wellFormed : node.WellFormed) (access : Access) :
    (node.withAccess access).WellFormed := by
  cases wellFormed with
  | file packs => exact .file packs
  | directory distinct valid below => exact .directory distinct valid below

theorem giveTo (wellFormed : node.WellFormed) (user : String) : (node.giveTo user).WellFormed := by
  induction wellFormed with
  | file packs => exact .file packs
  | @directory access entries distinct valid below ih =>
      have names : Roster.names (giveEntriesTo user entries) = Roster.names entries := by
        rw [giveEntriesTo_eq_map, Roster.names, List.map_map]
        rfl
      rw [Node.giveTo]
      refine .directory (names ▸ distinct) (names ▸ valid) fun entry member => ?_
      rw [giveEntriesTo_eq_map] at member
      obtain ⟨old, before, rfl⟩ := List.mem_map.1 member
      exact ih old before

theorem newDirectory (mode : Mode) (user : String) : (newDirectory mode user).WellFormed :=
  .directory List.nodup_nil (fun _ member => (List.not_mem_nil member).elim)
    fun _ member => (List.not_mem_nil member).elim

/-- What a well-formed node holds is well formed. -/
theorem of_holds {content : Content} (wellFormed : node.WellFormed)
    (holds : node.Holds content place) : content.WellFormed := by
  induction holds with
  | file same =>
      cases wellFormed with
      | file packs => exact same ▸ packs
  | entry member below ih =>
      cases wellFormed with
      | directory distinct valid inner => exact ih (inner _ member)

end WellFormed

/-- A change that takes no directory for a file keeps a directory one. -/
theorem isDirectory_changeAt (kept : ∀ old : Node, (change old).isDirectory = old.isDirectory) :
    (node.changeAt change place).isDirectory = node.isDirectory := by
  cases place with
  | nil => exact kept node
  | cons name rest => cases node <;> rfl

end Node

namespace Tree

structure WellFormed (tree : Tree) : Prop where
  root : tree.root.isDirectory = true
  nodes : tree.root.WellFormed

variable {tree after : Tree} {path parent name user : String} {node : Node} {content : Content}

namespace WellFormed

theorem changeAt {change : Node → Node} (wellFormed : tree.WellFormed)
    (shape : ∀ old : Node, (change old).isDirectory = old.isDirectory)
    (kept : ∀ old : Node, old.WellFormed → (change old).WellFormed) :
    (tree.changeAt path change).WellFormed :=
  ⟨(Node.isDirectory_changeAt shape).trans wellFormed.root, wellFormed.nodes.changeAt kept⟩

theorem changeDirectory {change : Directory → Directory} (wellFormed : tree.WellFormed)
    (kept : ∀ directory : Directory, directory.toNode.WellFormed →
      (change directory).toNode.WellFormed) :
    (tree.changeDirectory parent change).WellFormed := by
  refine wellFormed.changeAt (fun old => ?_) fun old before => ?_
  · cases old <;> rfl
  · cases old with
    | file file => exact before
    | directory access entries => exact kept ⟨access, entries⟩ before

theorem enter (wellFormed : tree.WellFormed) (named : Path.isName name = true)
    (enters : node.WellFormed) : (tree.changeDirectory parent (·.put name node)).WellFormed :=
  wellFormed.changeDirectory fun _ before => before.put named enters

theorem leave (wellFormed : tree.WellFormed) :
    (tree.changeDirectory parent (·.drop name)).WellFormed :=
  wellFormed.changeDirectory fun _ before => before.drop

theorem of_content (wellFormed : tree.WellFormed)
    (read : tree.content path user = .ok content) : content.WellFormed :=
  wellFormed.nodes.of_holds (holds_of_content read)

theorem mkdir (wellFormed : tree.WellFormed) (canonical : Path.Canonical path) :
    (tree.mkdir path user).2.WellFormed :=
  mkdir_keeps WellFormed wellFormed fun _ _ _ cut _ _ _ =>
    wellFormed.enter (isName_of_split? canonical cut) (.newDirectory _ _)

theorem touch (wellFormed : tree.WellFormed) (canonical : Path.Canonical path) :
    (tree.touch path user).2.WellFormed :=
  touch_keeps WellFormed wellFormed fun _ _ _ cut _ _ _ =>
    wellFormed.enter (isName_of_split? canonical cut) (.file (.inline ""))

theorem write (wellFormed : tree.WellFormed) (canonical : Path.Canonical path)
    (packs : content.WellFormed) : (tree.write path content user).2.WellFormed :=
  write_keeps WellFormed wellFormed
    (fun _ _ _ _ cut _ _ _ => wellFormed.enter (isName_of_split? canonical cut) (.file packs))
    fun _ _ _ cut _ _ _ => wellFormed.enter (isName_of_split? canonical cut) (.file packs)

theorem remove (wellFormed : tree.WellFormed) (recursive : Bool) :
    (tree.remove path user recursive).2.WellFormed :=
  remove_keeps WellFormed wellFormed fun _ _ _ _ _ _ => wellFormed.leave

theorem chmod (wellFormed : tree.WellFormed) (spec : String) :
    (tree.chmod path spec user).2.WellFormed := by
  refine chmod_keeps WellFormed wellFormed fun _ mode _ _ => ?_
  refine wellFormed.changeAt (fun old => ?_) fun old before => before.withAccess _
  cases old <;> rfl

/-- A moved node gets a valid name wherever it ends up, also where it came from. -/
theorem rename {source target : String} (wellFormed : tree.WellFormed)
    (canonical : Path.Canonical source) (too : Path.Canonical target) :
    (tree.rename source target user).2.WellFormed := by
  unfold Tree.rename
  rcases planned : tree.planMove source target user with cause | ⟨final, _ | move⟩
  · exact wellFormed
  · exact wellFormed
  · obtain ⟨outer, inner, checked⟩ := planMove_eq_some planned
    have moved : move.node.WellFormed :=
      (wellFormed.nodes.at? (directory_eq_ok_iff.1 checked.foundSource)).get? checked.held
    have landed := landing_canonical canonical too checked.landed
    dsimp only
    unfold carryOutMove
    dsimp only
    split
    · exact wellFormed.leave.enter (isName_of_split? landed checked.arrives) moved
    · exact wellFormed.leave.enter (isName_of_split? canonical checked.leaves) moved

theorem copy {source target : String} (wellFormed : tree.WellFormed)
    (canonical : Path.Canonical source) (too : Path.Canonical target) (recursive : Bool) :
    (tree.copy source target user recursive).2.WellFormed := by
  rcases copied : tree.copy source target user recursive with ⟨outcome, after⟩
  cases outcome with
  | error fault =>
      rw [Tree.copy, carryOut_eq_error_iff] at copied
      exact copied.2 ▸ wellFormed
  | ok final =>
      obtain ⟨node, parent, name, inner, made⟩ := copy_eq_ok copied
      have landed := landing_canonical canonical too made.landed
      have original := wellFormed.nodes.at? (lookup_eq_ok_iff.1 made.looked)
      rw [made.result]
      exact wellFormed.enter (isName_of_split? landed made.arrives) (original.giveTo user)

end WellFormed

end Tree

end PuzzleShell

import PuzzleShell.Proofs.Tree.Edit

/-!
# What the files of a tree hold

A content is held at a place if there is a file with it.  No operation makes contents up: creating
and removing entries and changing permissions leaves every file with what it holds, writing adds
the one content that is written, and moving and copying carry contents to other places.
-/

namespace PuzzleShell

namespace Roster

variable {α : Type} {name : String} {value : α} {roster : Roster α} {entry : String × α}

theorem mem_of_get? (found : get? name roster = some value) : (name, value) ∈ roster := by
  induction roster with
  | nil => cases found
  | cons first rest ih =>
      obtain ⟨known, old⟩ := first
      rw [get?_cons] at found
      split at found
      next same =>
        cases found
        rw [same]
        exact List.mem_cons_self
      · exact List.mem_cons_of_mem _ (ih found)

theorem mem_put (member : entry ∈ put name value roster) :
    entry = (name, value) ∨ entry ∈ roster := by
  induction roster with
  | nil => exact Or.inl (List.mem_singleton.1 member)
  | cons first rest ih =>
      obtain ⟨known, old⟩ := first
      rw [put] at member
      split at member
      next same =>
        rcases List.mem_cons.1 member with new | later
        · rw [same] at new
          exact Or.inl new
        · exact Or.inr (List.mem_cons_of_mem _ later)
      · rcases List.mem_cons.1 member with here | later
        · exact Or.inr (here ▸ List.mem_cons_self)
        · exact (ih later).imp_right (List.mem_cons_of_mem _)

theorem mem_drop (member : entry ∈ drop name roster) : entry ∈ roster := by
  induction roster with
  | nil => cases member
  | cons first rest ih =>
      obtain ⟨known, old⟩ := first
      rw [drop] at member
      split at member
      · exact List.mem_cons_of_mem _ member
      · rcases List.mem_cons.1 member with here | later
        · exact here ▸ List.mem_cons_self
        · exact List.mem_cons_of_mem _ (ih later)

theorem mem_update {change : α → α} (member : entry ∈ update name change roster) :
    entry ∈ roster ∨ ∃ old, get? name roster = some old ∧ entry = (name, change old) := by
  induction roster with
  | nil => cases member
  | cons first rest ih =>
      obtain ⟨known, old⟩ := first
      rw [update] at member
      rw [get?_cons]
      split at member
      next same =>
        rcases List.mem_cons.1 member with changed | later
        · exact Or.inr ⟨old, by rw [if_pos same.symm], by rw [changed, same]⟩
        · exact Or.inl (List.mem_cons_of_mem _ later)
      next different =>
        rcases List.mem_cons.1 member with here | later
        · exact Or.inl (here ▸ List.mem_cons_self)
        · rcases ih later with before | ⟨child, found, changed⟩
          · exact Or.inl (List.mem_cons_of_mem _ before)
          · exact Or.inr ⟨child, by rw [if_neg (Ne.symm different), found], changed⟩

end Roster

namespace Node

theorem giveEntriesTo_eq_map (user : String) (entries : List (String × Node)) :
    giveEntriesTo user entries = entries.map fun entry => (entry.1, entry.2.giveTo user) := by
  induction entries with
  | nil => rfl
  | cons entry rest ih => rw [giveEntriesTo, ih, List.map_cons]

/-- Whether a file at a place below a node holds a content. -/
inductive Holds (content : Content) : Node → List String → Prop where
  | file {file : File} (same : file.content = content) : Holds content (.file file) []
  | entry {access : Access} {entries : List (String × Node)} {name : String} {node : Node}
      {place : List String} (member : (name, node) ∈ entries)
      (below : Holds content node place) : Holds content (.directory access entries) (name :: place)

namespace Holds

variable {content : Content} {node found : Node} {place rest : List String}

/-- What a node holds that is reached from another one is held by that one. -/
theorem of_at? (reached : node.at? place = some found) (holds : found.Holds content rest) :
    node.Holds content (place ++ rest) := by
  induction place generalizing node with
  | nil =>
      cases reached
      exact holds
  | cons name place ih =>
      obtain ⟨directory, rfl, below⟩ := exists_directory_of_at?_cons reached
      obtain ⟨child, known, onwards⟩ := Option.bind_eq_some_iff.1 below
      exact .entry (Roster.mem_of_get? known) (ih onwards)

/-- A change at a place concerns what is held below it, and nothing else. -/
theorem changeAt {change : Node → Node} (holds : (node.changeAt change place).Holds content rest) :
    node.Holds content rest ∨
      ∃ old inner, node.at? place = some old ∧ rest = place ++ inner ∧
        (change old).Holds content inner := by
  induction place generalizing node rest with
  | nil => exact Or.inr ⟨node, rest, rfl, rfl, holds⟩
  | cons name place ih =>
      cases node with
      | file file => exact Or.inl holds
      | directory access entries =>
          rw [changeAt_cons_directory] at holds
          cases holds with
          | entry member below =>
              rcases Roster.mem_update member with before | ⟨child, known, changed⟩
              · exact Or.inl (.entry before below)
              · obtain ⟨rfl, rfl⟩ := Prod.mk.inj changed
                rcases ih below with kept | ⟨old, inner, reached, rfl, new⟩
                · exact Or.inl (.entry (Roster.mem_of_get? known) kept)
                · refine Or.inr ⟨old, inner, ?_, rfl, new⟩
                  rw [at?_cons_directory, known]
                  exact reached

/-- Whom a node is given to does not matter. -/
theorem giveTo {user : String} (holds : (node.giveTo user).Holds content place) :
    node.Holds content place := by
  induction place generalizing node with
  | nil =>
      cases node with
      | file file =>
          rw [Node.giveTo] at holds
          cases holds with
          | file same => exact .file same
      | directory access entries => cases holds
  | cons name place ih =>
      cases node with
      | file file => cases holds
      | directory access entries =>
          rw [Node.giveTo, giveEntriesTo_eq_map] at holds
          cases holds with
          | entry member below =>
              obtain ⟨⟨known, old⟩, before, same⟩ := List.mem_map.1 member
              obtain ⟨rfl, rfl⟩ := Prod.mk.inj same
              exact .entry before (ih below)

theorem withAccess {access : Access} (holds : (node.withAccess access).Holds content place) :
    node.Holds content place := by
  cases node with
  | file file =>
      cases holds with
      | file same => exact .file same
  | directory other entries =>
      cases holds with
      | entry member below => exact .entry member below

theorem put {directory : Directory} {name : String} {new : Node}
    (holds : (directory.put name new).toNode.Holds content place) :
    directory.toNode.Holds content place ∨
      ∃ inner, place = name :: inner ∧ new.Holds content inner := by
  cases holds with
  | entry member below =>
      rcases Roster.mem_put member with entered | before
      · obtain ⟨rfl, rfl⟩ := Prod.mk.inj entered
        exact Or.inr ⟨_, rfl, below⟩
      · exact Or.inl (.entry before below)

theorem drop {directory : Directory} {name : String}
    (holds : (directory.drop name).toNode.Holds content place) :
    directory.toNode.Holds content place := by
  cases holds with
  | entry member below => exact .entry (Roster.mem_drop member) below

end Holds

end Node

namespace Tree

def Holds (tree : Tree) (content : Content) (place : List String) : Prop :=
  tree.root.Holds content place

variable {tree : Tree} {content : Content} {place : List String} {parent name path user : String}

namespace Holds

/-- A change of a directory concerns what is held in it. -/
theorem changeDirectory {change : Directory → Directory}
    (holds : (tree.changeDirectory parent change).Holds content place) :
    tree.Holds content place ∨
      ∃ (directory : Directory) (inner : List String), tree.directory parent = .ok directory ∧
        place = Path.segments parent ++ inner ∧ (change directory).toNode.Holds content inner := by
  rw [Holds, root_changeDirectory] at holds
  rcases Node.Holds.changeAt holds with kept | ⟨old, inner, reached, rfl, new⟩
  · exact Or.inl kept
  · cases old with
    | file file => exact Or.inl (.of_at? reached new)
    | directory access entries =>
        exact Or.inr ⟨⟨access, entries⟩, inner, directory_eq_ok_iff.2 reached, rfl, new⟩

theorem put {new : Node}
    (holds : (tree.changeDirectory parent (·.put name new)).Holds content place) :
    tree.Holds content place ∨
      ∃ inner, place = Path.segments parent ++ name :: inner ∧ new.Holds content inner := by
  rcases changeDirectory holds with kept | ⟨directory, inner, found, rfl, changed⟩
  · exact Or.inl kept
  · rcases Node.Holds.put changed with before | ⟨inner, rfl, entered⟩
    · exact Or.inl (.of_at? (directory_eq_ok_iff.1 found) before)
    · exact Or.inr ⟨inner, rfl, entered⟩

theorem drop (holds : (tree.changeDirectory parent (·.drop name)).Holds content place) :
    tree.Holds content place := by
  rcases changeDirectory holds with kept | ⟨directory, inner, found, rfl, changed⟩
  · exact kept
  · exact .of_at? (directory_eq_ok_iff.1 found) (Node.Holds.drop changed)

end Holds

/--
Every file of a tree holds what it held in another one at the same place, or else something that is
described.
-/
def Retains (Fresh : Content → Prop) (tree after : Tree) : Prop :=
  ∀ content place, after.Holds content place → tree.Holds content place ∨ Fresh content

namespace Retains

variable {Fresh Known : Content → Prop} {between after : Tree}

theorem refl (tree : Tree) : Retains Fresh tree tree :=
  fun _ _ holds => Or.inl holds

theorem trans (first : Retains Fresh tree between) (second : Retains Fresh between after) :
    Retains Fresh tree after := by
  intro content place holds
  rcases second content place holds with before | fresh
  · exact first content place before
  · exact Or.inr fresh

theorem mono (retains : Retains Fresh tree after)
    (implied : ∀ content, Fresh content → Known content) :
    Retains Known tree after :=
  fun content place holds => (retains content place holds).imp_right (implied content)

end Retains

variable {Fresh : Content → Prop}

theorem retains_put {new : Node}
    (fresh : ∀ content inner, new.Holds content inner → Fresh content) :
    Retains Fresh tree (tree.changeDirectory parent (·.put name new)) := by
  intro content place holds
  rcases Holds.put holds with kept | ⟨inner, -, entered⟩
  · exact Or.inl kept
  · exact Or.inr (fresh content inner entered)

theorem retains_putFile {file : File} (fresh : Fresh file.content) :
    Retains Fresh tree (tree.changeDirectory parent (·.put name (.file file))) := by
  refine retains_put fun content inner holds => ?_
  cases holds with
  | file same => exact same ▸ fresh

theorem retains_drop : Retains Fresh tree (tree.changeDirectory parent (·.drop name)) :=
  fun _ _ holds => Or.inl (Holds.drop holds)

theorem retains_mkdir (tree : Tree) (path user : String) :
    Retains (fun _ => False) tree (tree.mkdir path user).2 := by
  refine mkdir_keeps _ (.refl tree) fun parent name directory cut found permitted free => ?_
  refine retains_put fun content inner holds => ?_
  cases holds with
  | entry member below => cases member

theorem retains_touch (tree : Tree) (path user : String) :
    Retains (· = .inline "") tree (tree.touch path user).2 :=
  touch_keeps _ (.refl tree) fun _ _ _ _ _ _ _ => retains_putFile rfl

theorem retains_write (tree : Tree) (path : String) (content : Content) (user : String) :
    Retains (· = content) tree (tree.write path content user).2 :=
  write_keeps _ (.refl tree) (fun _ _ _ _ _ _ _ _ => retains_putFile rfl)
    fun _ _ _ _ _ _ _ => retains_putFile rfl

theorem retains_remove (tree : Tree) (path user : String) (recursive : Bool) :
    Retains (fun _ => False) tree (tree.remove path user recursive).2 :=
  remove_keeps _ (.refl tree) fun _ _ _ _ _ _ => retains_drop

theorem retains_chmod (tree : Tree) (path spec user : String) :
    Retains (fun _ => False) tree (tree.chmod path spec user).2 := by
  refine chmod_keeps _ (.refl tree) fun node mode looked owned content place holds => ?_
  rw [Holds, root_changeAt] at holds
  rcases Node.Holds.changeAt holds with kept | ⟨old, inner, reached, rfl, new⟩
  · exact Or.inl kept
  · exact Or.inl (.of_at? reached new.withAccess)

/-- What is moved was there before, also if it has to be put back. -/
theorem retains_rename (tree : Tree) (source target user : String) :
    Retains (fun content => ∃ place, tree.Holds content place) tree
      (tree.rename source target user).2 := by
  unfold rename
  rcases planned : tree.planMove source target user with cause | ⟨final, _ | move⟩
  · exact .refl tree
  · exact .refl tree
  · obtain ⟨outer, inner, checked⟩ := planMove_eq_some planned
    have moved : ∀ content below, move.node.Holds content below →
        ∃ place, tree.Holds content place := by
      intro content below holds
      have reached := directory_eq_ok_iff.1 checked.foundSource
      exact ⟨_, .of_at? reached (.entry (Roster.mem_of_get? checked.held) holds)⟩
    dsimp only
    unfold carryOutMove
    dsimp only
    split
    · exact retains_drop.trans (retains_put moved)
    · exact retains_drop.trans (retains_put moved)

theorem retains_copy (tree : Tree) (source target user : String) (recursive : Bool) :
    Retains (fun content => ∃ place, tree.Holds content place) tree
      (tree.copy source target user recursive).2 := by
  rcases copied : tree.copy source target user recursive with ⟨outcome, after⟩
  cases outcome with
  | error fault =>
      rw [copy, carryOut_eq_error_iff] at copied
      rw [copied.2]
      exact .refl tree
  | ok final =>
      obtain ⟨node, parent, name, inner, made⟩ := copy_eq_ok copied
      rw [made.result]
      refine retains_put fun content below holds => ?_
      exact ⟨_, .of_at? (lookup_eq_ok_iff.1 made.looked) holds.giveTo⟩

end Tree

end PuzzleShell

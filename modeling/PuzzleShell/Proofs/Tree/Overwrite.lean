import PuzzleShell.Proofs.Path.Display
import PuzzleShell.Proofs.Tree.Locality
import PuzzleShell.Proofs.Tree.WellFormed

/-!
# Overwriting a file

Writing a file that is there already changes what the file holds, where the file stands.  Its
permissions and owners stay with it, and so does everything that any other path leads to.
-/

namespace PuzzleShell

namespace Roster

variable {α : Type} {name : String} {old : α} {roster : Roster α}

theorem update_congr {change other : α → α}
    (same : ∀ old, get? name roster = some old → change old = other old) :
    update name change roster = update name other roster := by
  induction roster with
  | nil => rfl
  | cons entry rest ih =>
      obtain ⟨known, held⟩ := entry
      rw [update, update]
      by_cases here : known = name
      · rw [if_pos here, if_pos here, same held (by rw [get?_cons, if_pos here.symm])]
      · rw [if_neg here, if_neg here, ih fun old found => same old ?_]
        rw [get?_cons, if_neg (Ne.symm here), found]

theorem update_update (first second : α → α) (name : String) (roster : Roster α) :
    update name second (update name first roster) = update name (second ∘ first) roster := by
  induction roster with
  | nil => rfl
  | cons entry rest ih =>
      obtain ⟨known, held⟩ := entry
      rw [update, update]
      by_cases here : known = name
      · rw [if_pos here, if_pos here, update, if_pos here]
        rfl
      · rw [if_neg here, if_neg here, update, if_neg here, ih]

/-- Entering a value under a known name changes the value there. -/
theorem put_eq_update (found : get? name roster = some old) (value : α) :
    put name value roster = update name (fun _ => value) roster := by
  induction roster with
  | nil => cases found
  | cons entry rest ih =>
      obtain ⟨known, held⟩ := entry
      rw [put, update]
      by_cases here : known = name
      · rw [if_pos here, if_pos here]
      · rw [get?_cons, if_neg (Ne.symm here)] at found
        rw [if_neg here, if_neg here, ih found]

end Roster

namespace Node

theorem changeAt_append (change : Node → Node) (place rest : List String) (node : Node) :
    node.changeAt change (place ++ rest) = node.changeAt (changeAt change rest) place := by
  induction place generalizing node with
  | nil => rfl
  | cons name place ih =>
      cases node with
      | file file => rfl
      | directory access entries =>
          rw [List.cons_append, changeAt_cons_directory, changeAt_cons_directory, funext ih]

/-- A change at a place is told by what it makes of what stands there. -/
theorem changeAt_congr {change other : Node → Node} {place : List String} {node : Node}
    (same : ∀ found, node.at? place = some found → change found = other found) :
    node.changeAt change place = node.changeAt other place := by
  induction place generalizing node with
  | nil => exact same node rfl
  | cons name place ih =>
      cases node with
      | file file => rfl
      | directory access entries =>
          rw [changeAt_cons_directory, changeAt_cons_directory]
          refine congrArg _ (Roster.update_congr fun child held => ih fun found standing => ?_)
          refine same found ?_
          rw [at?_cons_directory, held]
          exact standing

theorem changeAt_changeAt (first second : Node → Node) (place : List String) (node : Node) :
    (node.changeAt first place).changeAt second place =
      node.changeAt (second ∘ first) place := by
  induction place generalizing node with
  | nil => rfl
  | cons name place ih =>
      cases node with
      | file file => rfl
      | directory access entries =>
          rw [changeAt_cons_directory, changeAt_cons_directory, changeAt_cons_directory,
            Roster.update_update]
          exact congrArg (fun change => Node.directory access (Roster.update name change entries))
            (funext ih)

/-- A file with another content.  It keeps its permissions and owners, but no size of its own. -/
def overwrite (content : Content) : Node → Node
  | .file f => .file ⟨f.access, content, none⟩
  | .directory access entries => .directory access entries

theorem overwrite_overwrite (first second : Content) :
    overwrite second ∘ overwrite first = overwrite second := by
  funext node
  cases node <;> rfl

end Node

theorem Directory.toNode_put_file {directory : Directory} {name : String} {file : File}
    (held : directory.get? name = some (.file file)) (content : Content) :
    (directory.put name (.file ⟨file.access, content, none⟩)).toNode =
      directory.toNode.changeAt (Node.overwrite content) [name] := by
  rw [toNode, toNode, Node.changeAt_cons_directory, put, Roster.put_eq_update held]
  refine congrArg _ (Roster.update_congr fun old found => ?_)
  cases held.symm.trans found
  rfl

namespace Tree

variable {tree : Tree} {path other user : String} {file : File}

def overwrite (tree : Tree) (path : String) (content : Content) : Tree :=
  tree.changeAt path (Node.overwrite content)

/-- Only the last of several contents is left. -/
theorem overwrite_overwrite (tree : Tree) (path : String) (first second : Content) :
    (tree.overwrite path first).overwrite path second = tree.overwrite path second := by
  unfold overwrite changeAt
  rw [Node.changeAt_changeAt, Node.overwrite_overwrite]

theorem lookup_overwrite (found : tree.lookup path = .ok (.file file)) (content : Content) :
    (tree.overwrite path content).lookup path = .ok (.file ⟨file.access, content, none⟩) := by
  rw [lookup_eq_ok_iff, overwrite, root_changeAt, Node.at?_changeAt_self,
    lookup_eq_ok_iff.1 found]
  rfl

theorem isDirectory_overwrite (rooted : tree.root.isDirectory = true) (path : String)
    (content : Content) : (tree.overwrite path content).root.isDirectory = true := by
  refine (Node.isDirectory_changeAt fun old => ?_).trans rooted
  cases old <;> rfl

/-- Every other path leads to what it led to, with all entries, or to nothing as before. -/
theorem view_overwrite (elsewhere : Path.segments other ≠ Path.segments path) (tree : Tree)
    (content : Content) : (tree.overwrite path content).view [] other = tree.view [] other := by
  refine Node.follow_changeAt fun rest found whole standing => ?_
  cases rest with
  | nil => exact absurd (whole.trans (List.append_nil _)) elsewhere
  | cons name rest => cases found <;> rfl

/-- Whoever may write a file overwrites it. -/
theorem write_of_file (canonical : Path.Canonical path) (rooted : tree.root.isDirectory = true)
    (found : tree.lookup path = .ok (.file file))
    (permitted : file.access.permits user .write = true) (content : Content) :
    tree.write path content user = (.ok (), tree.overwrite path content) := by
  have standing := lookup_eq_ok_iff.1 found
  rcases canonical.split?_cases with ⟨rfl, -⟩ | ⟨parent, name, cut, -, -, -⟩
  · rw [show tree.root = .file file from Option.some.inj standing] at rooted
    cases rooted
  · have segments := (canonical.split? cut).2
    rw [segments, Node.at?_append, Option.bind_eq_some_iff] at standing
    obtain ⟨above, reached, below⟩ := standing
    obtain ⟨directory, rfl, inside⟩ := Node.exists_directory_of_at?_cons below
    obtain ⟨child, held, rfl⟩ : ∃ child, directory.get? name = some child ∧ child = .file file := by
      simpa [Option.bind_eq_some_iff] using inside
    have listed : tree.directory parent = .ok directory := directory_eq_ok_iff.2 reached
    have entered : tree.changeDirectory parent (·.put name (.file ⟨file.access, content, none⟩)) =
        tree.overwrite path content := by
      unfold changeDirectory overwrite changeAt
      rw [segments, Node.changeAt_append]
      refine congrArg Tree.mk (Node.changeAt_congr fun found standing => ?_)
      cases reached.symm.trans standing
      exact Directory.toNode_put_file held content
    rw [write, carryOut_eq_ok_iff]
    simp only [bind_eq_ok_iff, place_eq_ok_iff]
    refine ⟨(parent, name), cut, directory, listed, ?_⟩
    rw [held]
    simp only [bind_eq_ok_iff, require_eq_ok_iff]
    exact ⟨(), permitted, by rw [entered]; rfl⟩

end Tree

end PuzzleShell

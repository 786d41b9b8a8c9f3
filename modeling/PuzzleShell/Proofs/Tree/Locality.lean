import PuzzleShell.Proofs.Tree.InPlace
import PuzzleShell.Proofs.Tree.Integrity

/-!
# Where operations change a tree

An operation changes the tree at the path that it is given, at the path where something ended up
and, if something was moved, at the path where it came from.  Everything that stands elsewhere
stays, with its permissions and owners, its content and its entries in their order; only the
directories that a changed path is an entry of may list that entry or not.
-/

namespace PuzzleShell

/-- Whether a path leads through the place of another one, or ends there. -/
def Path.LeadsThrough (path other : String) : Prop :=
  segments other <+: segments path

instance (path other : String) : Decidable (Path.LeadsThrough path other) :=
  inferInstanceAs (Decidable (_ <+: _))

namespace Node

def faceWithout (hidden : String → Bool) : Node → Face
  | .file f => .file f
  | .directory access entries =>
      .directory access ((Roster.names entries).filter fun name => !hidden name)

theorem faceWithout_toNode (hidden : String → Bool) (directory : Directory) :
    directory.toNode.faceWithout hidden =
      .directory directory.access
        ((Roster.names directory.entries).filter fun name => !hidden name) := rfl

/-- A change is not seen at a place that does not lead through where it was made. -/
theorem follow_changeAt {path : String} {hidden : String → Bool} {change : Node → Node}
    {place names : List String} {node : Node}
    (unseen : ∀ rest found, names = place ++ rest → node.at? place = some found →
      ((change found).follow path rest).map (faceWithout hidden) =
        (found.follow path rest).map (faceWithout hidden)) :
    ((node.changeAt change place).follow path names).map (faceWithout hidden) =
      (node.follow path names).map (faceWithout hidden) := by
  induction place generalizing node names with
  | nil => exact unseen names node rfl rfl
  | cons name place ih =>
      cases node with
      | file file => rfl
      | directory access entries =>
          rw [changeAt_cons_directory]
          cases names with
          | nil => simp only [follow, Except.map, faceWithout, Roster.names_update]
          | cons first rest =>
              rw [follow, follow, Roster.get?_update]
              by_cases same : first = name
              · subst same
                rw [if_pos rfl]
                cases held : Roster.get? first entries with
                | none => rfl
                | some child =>
                    refine ih fun onwards found whole standing => ?_
                    refine unseen onwards found (by rw [whole, List.cons_append]) ?_
                    rw [at?_cons_directory, held]
                    exact standing
              · rw [if_neg same]

end Node

namespace Directory

/-- A change of a directory that concerns the entry of one name alone. -/
structure ChangesOnly (change : Directory → Directory) (name : String) : Prop
    extends KeepsOthers change name where
  names : ∀ directory (hidden : String → Bool), hidden name = true →
    ((Roster.names (change directory).entries).filter fun other => !hidden other) =
      (Roster.names directory.entries).filter fun other => !hidden other

theorem changesOnly_put (name : String) (node : Node) : ChangesOnly (·.put name node) name where
  toKeepsOthers := keepsOthers_put name node
  names directory hidden covered := by
    rw [put, Roster.names_put]
    split
    · rfl
    · rw [List.filter_append, List.filter_cons_of_neg (by simp [covered]), List.filter_nil,
        List.append_nil]

theorem changesOnly_drop (name : String) : ChangesOnly (·.drop name) name where
  toKeepsOthers := keepsOthers_drop name
  names directory hidden covered := by
    rw [drop, Roster.names_drop, ← List.erase_filter, List.erase_of_not_mem]
    simp [covered]

/-- A change of one entry is seen by those alone who look for that entry. -/
theorem ChangesOnly.follow {change : Directory → Directory} {name path : String}
    {hidden : String → Bool} (only : ChangesOnly change name) {rest : List String}
    (apart : ¬ [name] <+: rest) (covered : rest = [] → hidden name = true) (node : Node) :
    ((node.mapDirectory change).follow path rest).map (Node.faceWithout hidden) =
      (node.follow path rest).map (Node.faceWithout hidden) := by
  cases node with
  | file file => rfl
  | directory access entries =>
      rw [Node.mapDirectory]
      cases rest with
      | nil =>
          rw [Node.follow, Node.follow, Except.map, Except.map, Node.faceWithout_toNode,
            only.access, only.names _ _ (covered rfl)]
          rfl
      | cons first rest =>
          have different : first ≠ name := by
            rintro rfl
            exact apart (List.prefix_append [first] rest)
          have kept := only.others ⟨access, entries⟩ first different
          rw [get?, get?] at kept
          rw [toNode, Node.follow, Node.follow, kept]

end Directory

namespace Tree

inductive ChangedAt (path : String) (tree : Tree) : Tree → Prop where
  | entry {parent name : String} {change : Directory → Directory}
      (cut : Path.segments path = Path.segments parent ++ [name])
      (only : Directory.ChangesOnly change name) :
      ChangedAt path tree (tree.changeDirectory parent change)
  | whole (change : Node → Node) : ChangedAt path tree (tree.changeAt path change)

abbrev ChangedAmong (targets : List String) : Tree → Tree → Prop :=
  Relation.ReflTransGen fun tree after => ∃ path ∈ targets, ChangedAt path tree after

/--
What is seen of a tree at a path: what the path leads to, except for the entries that are among the
given paths themselves.
-/
def view (targets : List String) (path : String) (tree : Tree) : Except Fault Node.Face :=
  (tree.lookup path).map
    (Node.faceWithout fun name =>
      targets.any fun target => Path.segments target = Path.segments path ++ [name])

variable {tree after : Tree} {targets : List String} {path target : String}

/-- A change is seen only on the ways that lead through its place. -/
theorem ChangedAt.follow_eq {hidden : String → Bool} {place : List String}
    (changed : ChangedAt target tree after) (elsewhere : ¬ Path.segments target <+: place)
    (covered : ∀ name, Path.segments target = place ++ [name] → hidden name = true)
    (asked : String) :
    (after.root.follow asked place).map (Node.faceWithout hidden) =
      (tree.root.follow asked place).map (Node.faceWithout hidden) := by
  cases changed with
  | @entry parent name change cut only =>
      rw [root_changeDirectory]
      refine Node.follow_changeAt fun rest found through standing => ?_
      refine only.follow ?_ ?_ found
      · intro below
        apply elsewhere
        rw [cut, through]
        exact (List.prefix_append_right_inj _).2 below
      · rintro rfl
        rw [List.append_nil] at through
        exact covered name (by rw [cut, through])
  | whole change =>
      rw [root_changeAt]
      refine Node.follow_changeAt fun rest found through standing => ?_
      exact absurd (through ▸ List.prefix_append _ _) elsewhere

theorem ChangedAmong.follow_eq {hidden : String → Bool} {place : List String}
    (changed : ChangedAmong targets tree after)
    (elsewhere : ∀ target ∈ targets, ¬ Path.segments target <+: place)
    (covered : ∀ target ∈ targets, ∀ name, Path.segments target = place ++ [name] →
      hidden name = true) (asked : String) :
    (after.root.follow asked place).map (Node.faceWithout hidden) =
      (tree.root.follow asked place).map (Node.faceWithout hidden) := by
  induction changed with
  | refl => rfl
  | tail before step ih =>
      obtain ⟨target, known, changed⟩ := step
      exact (changed.follow_eq (elsewhere target known) (covered target known) asked).trans ih

theorem ChangedAmong.view_eq (changed : ChangedAmong targets tree after)
    (elsewhere : ∀ target ∈ targets, ¬ Path.LeadsThrough path target) :
    after.view targets path = tree.view targets path := by
  refine changed.follow_eq elsewhere (fun target known name entry => ?_) path
  rw [List.any_eq_true]
  exact ⟨target, known, by simpa using entry⟩

/-- What stands at a place that a change is neither above nor below stays there as it is. -/
theorem ChangedAt.at?_eq {place : List String} (changed : ChangedAt target tree after)
    (notBelow : ¬ Path.segments target <+: place) (notAbove : ¬ place <+: Path.segments target) :
    after.root.at? place = tree.root.at? place := by
  cases changed with
  | @entry parent name change cut only =>
      rw [cut] at notBelow notAbove
      rw [root_changeDirectory]
      by_cases inside : Path.segments parent <+: place
      · obtain ⟨rest, rfl⟩ := inside
        rw [Node.at?_changeAt_append, Node.at?_append]
        cases rest with
        | nil => exact absurd (by simp) notAbove
        | cons first rest =>
            have different : first ≠ name := by
              rintro rfl
              exact notBelow ((List.prefix_append_right_inj _).2 (List.prefix_append [first] rest))
            rcases tree.root.at? (Path.segments parent) with _ | file | ⟨access, entries⟩
            · rfl
            · rfl
            · have kept := only.others ⟨access, entries⟩ first different
              rw [Option.map_some, Option.bind_some, Option.bind_some, Node.mapDirectory,
                Node.toNode_at?_cons, kept, ← Node.toNode_at?_cons]
              rfl
      · have outside : ¬ place <+: Path.segments parent := fun above =>
          notAbove (above.trans (List.prefix_append _ _))
        exact Node.at?_changeAt_apart inside outside _ _
  | whole change => exact Node.at?_changeAt_apart notBelow notAbove _ _

theorem ChangedAmong.at?_eq {place : List String} (changed : ChangedAmong targets tree after)
    (notBelow : ∀ target ∈ targets, ¬ Path.segments target <+: place)
    (notAbove : ∀ target ∈ targets, ¬ place <+: Path.segments target) :
    after.root.at? place = tree.root.at? place := by
  induction changed with
  | refl => rfl
  | tail before step ih =>
      obtain ⟨target, known, changed⟩ := step
      exact (changed.at?_eq (notBelow target known) (notAbove target known)).trans ih

theorem ChangedAmong.mono {others : List String} (changed : ChangedAmong targets tree after)
    (included : targets ⊆ others) : ChangedAmong others tree after := by
  induction changed with
  | refl => exact .refl
  | tail before step ih =>
      obtain ⟨target, known, change⟩ := step
      exact ih.tail ⟨target, included known, change⟩

/-- A path that leads neither through one of the changed places nor to above one leads as before. -/
theorem ChangedAmong.lookup_eq (changed : ChangedAmong targets tree after)
    (notBelow : ∀ target ∈ targets, ¬ Path.LeadsThrough path target)
    (notAbove : ∀ target ∈ targets, ¬ Path.LeadsThrough target path) :
    after.lookup path = tree.lookup path := by
  have same := changed.at?_eq notBelow notAbove
  cases looked : tree.lookup path with
  | ok node => exact lookup_eq_ok_iff.2 (same.trans (lookup_eq_ok_iff.1 looked))
  | error fault =>
      have seen := changed.view_eq notBelow
      cases found : after.lookup path with
      | ok node =>
          rw [lookup_eq_ok_iff, same, ← lookup_eq_ok_iff, looked] at found
          cases found
      | error other =>
          rw [view, view, looked, found] at seen
          exact congrArg Except.error (Except.error.inj seen)

section Operations

variable {parent name source final user : String}

theorem changedAmong_put (canonical : Path.Canonical path)
    (cut : Path.split? path = some (parent, name)) (known : path ∈ targets) (tree : Tree)
    (node : Node) : ChangedAmong targets tree (tree.changeDirectory parent (·.put name node)) :=
  .single ⟨path, known, .entry (canonical.split? cut).2 (Directory.changesOnly_put name node)⟩

theorem changedAmong_drop (canonical : Path.Canonical path)
    (cut : Path.split? path = some (parent, name)) (known : path ∈ targets) (tree : Tree) :
    ChangedAmong targets tree (tree.changeDirectory parent (·.drop name)) :=
  .single ⟨path, known, .entry (canonical.split? cut).2 (Directory.changesOnly_drop name)⟩

theorem mkdir_changed (canonical : Path.Canonical path) (tree : Tree) (user : String) :
    ChangedAmong [path] tree (tree.mkdir path user).2 := by
  apply mkdir_keeps (ChangedAmong [path] tree) .refl
  intro parent name directory cut _ _ _
  exact changedAmong_put canonical cut (List.mem_singleton_self path) tree _

theorem touch_changed (canonical : Path.Canonical path) (tree : Tree) (user : String) :
    ChangedAmong [path] tree (tree.touch path user).2 := by
  apply touch_keeps (ChangedAmong [path] tree) .refl
  intro parent name directory cut _ _ _
  exact changedAmong_put canonical cut (List.mem_singleton_self path) tree _

theorem write_changed (canonical : Path.Canonical path) (tree : Tree) (content : Content)
    (user : String) : ChangedAmong [path] tree (tree.write path content user).2 := by
  apply write_keeps (ChangedAmong [path] tree) .refl
  · intro parent name directory file cut _ _ _
    exact changedAmong_put canonical cut (List.mem_singleton_self path) tree _
  · intro parent name directory cut _ _ _
    exact changedAmong_put canonical cut (List.mem_singleton_self path) tree _

theorem remove_changed (canonical : Path.Canonical path) (tree : Tree) (user : String)
    (recursive : Bool) : ChangedAmong [path] tree (tree.remove path user recursive).2 := by
  apply remove_keeps (ChangedAmong [path] tree) .refl
  intro parent name directory cut _ _
  exact changedAmong_drop canonical cut (List.mem_singleton_self path) tree

theorem chmod_changed (tree : Tree) (path spec user : String) :
    ChangedAmong [path] tree (tree.chmod path spec user).2 := by
  apply chmod_keeps (ChangedAmong [path] tree) .refl
  intro node mode _ _
  exact .single ⟨path, List.mem_singleton_self path, .whole _⟩

/-- A move changes the tree where the node was and where it ended up. -/
theorem rename_changed (canonical : Path.Canonical source) (too : Path.Canonical target)
    (moved : tree.rename source target user = (.ok final, after)) :
    ChangedAmong [source, final] tree after := by
  rw [rename] at moved
  split at moved
  · cases moved
  · cases moved
    exact .refl
  next move planned =>
    obtain ⟨outer, inner, checked⟩ := planMove_eq_some planned
    obtain ⟨directory, found⟩ := exists_directory_of_planMove canonical too planned
    rw [carryOutMove_eq_ok found] at moved
    cases moved
    have canonicalFinal := landing_canonical canonical too checked.landed
    refine (changedAmong_drop canonical checked.leaves (by simp) tree).trans ?_
    exact changedAmong_put canonicalFinal checked.arrives (by simp) _ move.node

theorem copy_changed (canonical : Path.Canonical source) (too : Path.Canonical target)
    {recursive : Bool} (copied : tree.copy source target user recursive = (.ok final, after)) :
    ChangedAmong [final] tree after := by
  obtain ⟨node, parent, name, inner, copied⟩ := copy_eq_ok copied
  have canonicalFinal := landing_canonical canonical too copied.landed
  rw [copied.result]
  exact changedAmong_put canonicalFinal copied.arrives (List.mem_singleton_self final) tree _

end Operations

end Tree

namespace Operation

/-- The paths at which a request changes the tree, by what it was answered. -/
def targets : Operation → Reply → List String
  | .mkdir path, _ | .touch path, _ | .write path _, _ | .remove path _, _ | .chmod path _, _ =>
      [path]
  | .rename source _, .landed (.ok final) => [source, final]
  | .copy _ _ _, .landed (.ok final) => [final]
  | _, _ => []

theorem perform_changed {operation : Operation} (canonical : operation.Canonical)
    (oracle : ContentOracle) (user : String) (tree : Tree) :
    Tree.ChangedAmong (operation.targets (operation.perform oracle user tree).1) tree
      (operation.perform oracle user tree).2 := by
  cases operation with
  | enter path => exact .refl
  | list path => exact .refl
  | content path => exact .refl
  | read path => exact .refl
  | mkdir path => exact Tree.mkdir_changed canonical tree user
  | touch path => exact Tree.touch_changed canonical tree user
  | write path held => exact Tree.write_changed canonical tree held user
  | remove path recursive => exact Tree.remove_changed canonical tree user recursive
  | chmod path spec => exact Tree.chmod_changed tree path spec user
  | rename source target =>
      rw [perform]
      rcases moved : tree.rename source target user with ⟨fault | final, after⟩
      · have same := Tree.snd_rename_of_error canonical.1 canonical.2 (congrArg Prod.fst moved)
        rw [moved] at same
        rw [same]
      · exact Tree.rename_changed canonical.1 canonical.2 moved
  | copy source target recursive =>
      rw [perform]
      rcases copied : tree.copy source target user recursive with ⟨fault | final, after⟩
      · rw [Tree.copy, Tree.carryOut_eq_error_iff] at copied
        rw [copied.2]
      · exact Tree.copy_changed canonical.1 canonical.2 copied

/--
A request changes the tree at its targets alone.  Any other path leads nowhere if it led nowhere, to
the same file if it led to a file, and otherwise to a directory with the same permissions and owners
and, targets apart, the same names in the same order.
-/
theorem view_perform_of_elsewhere {operation : Operation} (canonical : operation.Canonical)
    (oracle : ContentOracle) (user : String) (tree : Tree) {path : String}
    (elsewhere : ∀ target ∈ operation.targets (operation.perform oracle user tree).1,
      ¬ Path.LeadsThrough path target) :
    (operation.perform oracle user tree).2.view
        (operation.targets (operation.perform oracle user tree).1) path =
      tree.view (operation.targets (operation.perform oracle user tree).1) path :=
  (perform_changed canonical oracle user tree).view_eq elsewhere

theorem view_perform_moveEtc :
    (rename "/etc" "/tmp").Canonical ∧
      (rename "/etc" "/tmp").targets ((rename "/etc" "/tmp").perform (fun _ => .ok "") rootUser
        (World.standard .default)).1 = ["/etc", "/tmp/etc"] ∧
      (∀ target ∈ ["/etc", "/tmp/etc"], ¬ Path.LeadsThrough "/tmp" target) ∧
      ((rename "/etc" "/tmp").perform (fun _ => .ok "") rootUser
          (World.standard .default)).2.view ["/etc", "/tmp/etc"] "/tmp" =
        (World.standard .default).view ["/etc", "/tmp/etc"] "/tmp" := by
  have reached : (rename "/etc" "/tmp").targets ((rename "/etc" "/tmp").perform
      (fun _ => .ok "") rootUser (World.standard .default)).1 = ["/etc", "/tmp/etc"] := by decide
  have elsewhere : ∀ target ∈ ["/etc", "/tmp/etc"], ¬ Path.LeadsThrough "/tmp" target := by decide
  have kept := @view_perform_of_elsewhere (rename "/etc" "/tmp") (by decide) (fun _ => .ok "")
    rootUser (World.standard .default) "/tmp" (by rw [reached]; exact elsewhere)
  rw [reached] at kept
  exact ⟨by decide, reached, elsewhere, kept⟩

end Operation

end PuzzleShell

import Mathlib.Logic.Relation
import PuzzleShell.Proofs.Tree.Operation
import PuzzleShell.Proofs.Tree.Place

/-!
# What operations may do to a tree

Every operation is a sequence of small edits, each at a place where the user is entitled to it.
The one exception is a copy that lands on a file: it takes the place of a file that the user may
write, and gives that place to the user.
-/

namespace PuzzleShell

namespace Tree

/-- An edit of a tree that a user is entitled to. -/
inductive Edit (user : String) (tree : Tree) : Tree → Prop where
  /-- A new entry in a directory that the user may write. -/
  | enter {parent name : String} {directory : Directory} (node : Node)
      (found : tree.directory parent = .ok directory)
      (permitted : directory.access.permits user .write = true)
      (free : directory.get? name = none) :
      Edit user tree (tree.changeDirectory parent (·.put name node))
  /-- Other content in a file that the user may write. -/
  | overwrite {parent name : String} {directory : Directory} {file : File} (content : Content)
      (found : tree.directory parent = .ok directory)
      (held : directory.get? name = some (.file file))
      (permitted : file.access.permits user .write = true) :
      Edit user tree
        (tree.changeDirectory parent (·.put name (.file ⟨file.access, content, none⟩)))
  /-- Something else in the place of a file that the user may take out. -/
  | supplant {parent name : String} {directory : Directory} (node : Node)
      (found : tree.directory parent = .ok directory)
      (allowed : directory.mayDrop name user = true) :
      Edit user tree (tree.changeDirectory parent (·.put name node))
  /-- An entry less. -/
  | drop {parent name : String} {directory : Directory}
      (found : tree.directory parent = .ok directory)
      (allowed : directory.mayDrop name user = true) :
      Edit user tree (tree.changeDirectory parent (·.drop name))
  /-- Other permissions on what the user owns. -/
  | remode {path : String} {node : Node} (mode : Mode)
      (found : tree.lookup path = .ok node)
      (owned : user = rootUser ∨ node.access.owner = user) :
      Edit user tree
        (tree.changeAt path fun old => old.withAccess { old.access with mode := mode })

/-- A copy that lands on a file which the user may write, and is then the user's. -/
structure Cover (user : String) (place : List String) (tree after : Tree) : Prop where
  covered : ∃ (parent name : String) (directory : Directory) (file : File) (node : Node),
    place = Path.segments parent ++ [name] ∧
    tree.directory parent = .ok directory ∧
    directory.access.permits user .write = true ∧
    directory.get? name = some (.file file) ∧
    file.access.permits user .write = true ∧
    after = tree.changeDirectory parent (·.put name (node.giveTo user))

abbrev Edits (user : String) : Tree → Tree → Prop :=
  Relation.ReflTransGen (Edit user)

theorem place_eq_ok_iff {path : String} {parts : String × String} :
    place path = .ok parts ↔ Path.split? path = some parts := by
  rw [place]
  cases Path.split? path <;> simp

/-!
What holds of a tree holds of it after an operation too, if it holds after each edit that the
operation makes once its checks have passed.
-/

section Keeps

variable {tree : Tree} {path user : String} (Holds : Tree → Prop) (before : Holds tree)
include before

theorem mkdir_keeps
    (made : ∀ parent name directory, Path.split? path = some (parent, name) →
      tree.directory parent = .ok directory → directory.access.permits user .write = true →
      directory.get? name = none →
      Holds (tree.changeDirectory parent (·.put name (.newDirectory .newDirectory user)))) :
    Holds (tree.mkdir path user).2 := by
  refine carryOut_keeps Holds before fun value after planned => ?_
  cases cut : Path.split? path with
  | none =>
      rw [cut] at planned
      cases planned
  | some parts =>
      rw [cut] at planned
      simp only [bind_eq_ok_iff, require_eq_ok_iff] at planned
      obtain ⟨directory, found, ⟨⟩, permitted, rest⟩ := planned
      split at rest
      · cases rest
      next known =>
        cases rest
        have free : directory.get? parts.2 = none := by
          simpa [Directory.has, Directory.get?, Roster.has] using known
        exact made _ _ directory cut found permitted free

theorem touch_keeps
    (made : ∀ parent name directory, Path.split? path = some (parent, name) →
      tree.directory parent = .ok directory → directory.access.permits user .write = true →
      tree.has path = false →
      Holds (tree.changeDirectory parent (·.put name (.newText .newFile user "")))) :
    Holds (tree.touch path user).2 := by
  refine carryOut_keeps Holds before fun value after planned => ?_
  split at planned
  · cases planned
    exact before
  next missing =>
    simp only [bind_eq_ok_iff, require_eq_ok_iff, place_eq_ok_iff] at planned
    obtain ⟨⟨parent, name⟩, cut, directory, found, ⟨⟩, permitted, rest⟩ := planned
    cases rest
    exact made parent name directory cut found permitted (by simpa using missing)

theorem write_keeps {content : Content}
    (overwritten : ∀ parent name directory file, Path.split? path = some (parent, name) →
      tree.directory parent = .ok directory → directory.get? name = some (.file file) →
      file.access.permits user .write = true →
      Holds (tree.changeDirectory parent (·.put name (.file ⟨file.access, content, none⟩))))
    (made : ∀ parent name directory, Path.split? path = some (parent, name) →
      tree.directory parent = .ok directory → directory.access.permits user .write = true →
      directory.get? name = none →
      Holds (tree.changeDirectory parent (·.put name (.newFile .newFile user content none)))) :
    Holds (tree.write path content user).2 := by
  refine carryOut_keeps Holds before fun value after planned => ?_
  simp only [bind_eq_ok_iff, place_eq_ok_iff] at planned
  obtain ⟨⟨parent, name⟩, cut, directory, found, rest⟩ := planned
  split at rest
  · cases rest
  next file held =>
    simp only [bind_eq_ok_iff, require_eq_ok_iff] at rest
    obtain ⟨⟨⟩, permitted, rest⟩ := rest
    cases rest
    exact overwritten parent name directory file cut found held permitted
  next free =>
    simp only [bind_eq_ok_iff, require_eq_ok_iff] at rest
    obtain ⟨⟨⟩, permitted, rest⟩ := rest
    cases rest
    exact made parent name directory cut found permitted free

theorem remove_keeps {recursive : Bool}
    (removed : ∀ parent name directory, Path.split? path = some (parent, name) →
      tree.directory parent = .ok directory → directory.mayDrop name user = true →
      Holds (tree.changeDirectory parent (·.drop name))) :
    Holds (tree.remove path user recursive).2 := by
  refine carryOut_keeps Holds before fun value after planned => ?_
  simp only [bind_eq_ok_iff, place_eq_ok_iff] at planned
  obtain ⟨⟨parent, name⟩, cut, directory, found, rest⟩ := planned
  split at rest
  next node held =>
    split at rest
    · cases rest
    · split at rest
      next allowed =>
        cases rest
        exact removed parent name directory cut found allowed
      · cases rest
  · cases rest

theorem chmod_keeps {spec : String}
    (changed : ∀ node mode, tree.lookup path = .ok node →
      user = rootUser ∨ node.access.owner = user →
      Holds (tree.changeAt path fun old => old.withAccess { old.access with mode := mode })) :
    Holds (tree.chmod path spec user).2 := by
  refine carryOut_keeps Holds before fun value after planned => ?_
  simp only [bind_eq_ok_iff] at planned
  obtain ⟨node, found, rest⟩ := planned
  split at rest
  · split at rest
    · cases rest
    next entitled =>
      cases rest
      have owned : user = rootUser ∨ node.access.owner = user := by
        by_cases isRoot : user = rootUser
        · exact Or.inl isRoot
        · exact Or.inr (by simpa [isRoot] using entitled)
      exact changed node _ found owned
  · cases rest

end Keeps

theorem mkdir_edits (tree : Tree) (path user : String) :
    Edits user tree (tree.mkdir path user).2 := by
  apply mkdir_keeps (Edits user tree) .refl
  intro parent name directory cut found permitted free
  exact .single (.enter _ found permitted free)

/-- What a path leads to is the entry of its last name in its directory. -/
theorem at?_of_split? {tree : Tree} {path parent name : String} {directory : Directory}
    (canonical : Path.Canonical path) (cut : Path.split? path = some (parent, name))
    (found : tree.directory parent = .ok directory) :
    tree.root.at? (Path.segments path) = directory.get? name := by
  rw [(canonical.split? cut).2, Node.at?_append, directory_eq_ok_iff.1 found, Option.bind_some,
    Directory.at?_toNode]

/-- What a path leads to after its directory was changed. -/
theorem at?_changeDirectory_of_split? {tree : Tree} {path parent name : String}
    {directory : Directory} (canonical : Path.Canonical path)
    (cut : Path.split? path = some (parent, name)) (found : tree.directory parent = .ok directory)
    (change : Directory → Directory) :
    (tree.changeDirectory parent change).root.at? (Path.segments path) =
      (change directory).get? name := by
  rw [(canonical.split? cut).2, at?_changeDirectory found, Directory.at?_toNode]

theorem at?_put_of_split? {tree : Tree} {path parent name : String} {directory : Directory}
    (canonical : Path.Canonical path) (cut : Path.split? path = some (parent, name))
    (found : tree.directory parent = .ok directory) (node : Node) :
    (tree.changeDirectory parent (·.put name node)).root.at? (Path.segments path) = some node := by
  rw [at?_changeDirectory_of_split? canonical cut found, Directory.get?_put_self]

/-- Nothing stands at an entry of a directory if no path leads there. -/
theorem get?_eq_none_of_not_has {tree : Tree} {path parent name : String} {directory : Directory}
    (canonical : Path.Canonical path) (cut : Path.split? path = some (parent, name))
    (found : tree.directory parent = .ok directory) (missing : tree.has path = false) :
    directory.get? name = none := by
  rw [has_eq_isSome, at?_of_split? canonical cut found] at missing
  simpa using missing

theorem touch_edits {path : String} (canonical : Path.Canonical path) (tree : Tree)
    (user : String) : Edits user tree (tree.touch path user).2 := by
  apply touch_keeps (Edits user tree) .refl
  intro parent name directory cut found permitted missing
  have free := get?_eq_none_of_not_has canonical cut found missing
  exact .single (.enter _ found permitted free)

theorem write_edits (tree : Tree) (path : String) (content : Content) (user : String) :
    Edits user tree (tree.write path content user).2 := by
  apply write_keeps (Edits user tree) .refl
  · intro parent name directory file cut found held permitted
    exact .single (.overwrite content found held permitted)
  · intro parent name directory cut found permitted free
    exact .single (.enter _ found permitted free)

theorem remove_edits (tree : Tree) (path user : String) (recursive : Bool) :
    Edits user tree (tree.remove path user recursive).2 := by
  apply remove_keeps (Edits user tree) .refl
  intro parent name directory cut found allowed
  exact .single (.drop found allowed)

theorem chmod_edits (tree : Tree) (path spec user : String) :
    Edits user tree (tree.chmod path spec user).2 := by
  apply chmod_keeps (Edits user tree) .refl
  intro node mode found owned
  exact .single (.remode mode found owned)

/-- The name at the end of a canonical path is a valid one. -/
theorem isName_of_split? {path parent name : String} (canonical : Path.Canonical path)
    (cut : Path.split? path = some (parent, name)) : Path.isName name = true := by
  have valid := canonical.valid
  rw [(canonical.split? cut).2] at valid
  exact valid name (by simp)

/-- Whatever lands between canonical paths lands at a canonical path. -/
theorem landing_canonical {tree : Tree} {source target final : String}
    (canonical : Path.Canonical source) (too : Path.Canonical target)
    (landed : tree.landing source target = .ok final) : Path.Canonical final := by
  rw [landing, bind_eq_ok_iff] at landed
  obtain ⟨⟨parent, name⟩, cut, answer⟩ := landed
  have named := isName_of_split? canonical (place_eq_ok_iff.1 cut)
  cases answer
  split
  · exact (too.join named).1
  · exact too

/-- What stands where something may land: nothing, or a file that may be replaced. -/
theorem checkLanding_eq_ok_iff {tree : Tree} {node : Node} {target user : String}
    {mayReplace : Directory → String → Bool} {done : Unit} :
    tree.checkLanding node target user mayReplace = .ok done ↔
      ∃ parent name directory, Path.split? target = some (parent, name) ∧
        tree.directory parent = .ok directory ∧
        directory.access.permits user .write = true ∧
        (directory.get? name = none ∨
          ∃ file, directory.get? name = some (.file file) ∧ node.isDirectory = false ∧
            mayReplace directory name = true) := by
  rw [checkLanding]
  simp only [bind_eq_ok_iff, place_eq_ok_iff, require_eq_ok_iff]
  constructor
  · rintro ⟨⟨parent, name⟩, cut, directory, found, ⟨⟩, permitted, rest⟩
    refine ⟨parent, name, directory, cut, found, permitted, ?_⟩
    split at rest
    next free => exact Or.inl free
    · cases rest
    next file held =>
      split at rest
      · cases rest
      next isFile =>
        split at rest
        next allowed => exact Or.inr ⟨file, held, by simpa using isFile, allowed⟩
        · cases rest
  · rintro ⟨parent, name, directory, cut, found, permitted, landed⟩
    refine ⟨(parent, name), cut, directory, found, (), permitted, ?_⟩
    rcases landed with free | ⟨file, held, isFile, allowed⟩
    · simp only [free]
      rfl
    · simp only [held, isFile, allowed]
      rfl

structure Move.Checked (tree : Tree) (source target user : String) (move : Move)
    (outer inner : Directory) : Prop where
  leaves : Path.split? source = some (move.sourceParent, move.sourceName)
  landed : tree.landing source target = .ok move.target
  elsewhere : move.target ≠ source
  notBelow : Path.isBelow move.target source = false
  foundSource : tree.directory move.sourceParent = .ok outer
  mayLeave : outer.mayDrop move.sourceName user = true
  held : outer.get? move.sourceName = some move.node
  arrives : Path.split? move.target = some (move.targetParent, move.targetName)
  foundTarget : tree.directory move.targetParent = .ok inner
  permitted : inner.access.permits user .write = true
  free : inner.get? move.targetName = none ∨
    ∃ file, inner.get? move.targetName = some (.file file) ∧
      inner.mayDrop move.targetName user = true

theorem planMove_eq_some {tree : Tree} {source target user final : String} {move : Move}
    (planned : tree.planMove source target user = .ok (final, some move)) :
    ∃ outer inner, move.Checked tree source target user outer inner := by
  rw [planMove] at planned
  simp only [bind_eq_ok_iff, place_eq_ok_iff] at planned
  obtain ⟨⟨sourceParent, sourceName⟩, leaves, node, looked, landed, landing, rest⟩ := planned
  split at rest
  · cases rest
  next elsewhere =>
    split at rest
    · cases rest
    next notBelow =>
      simp only [bind_eq_ok_iff] at rest
      obtain ⟨outer, foundSource, rest⟩ := rest
      split at rest
      next mayLeave =>
        simp only [bind_eq_ok_iff, checkLanding_eq_ok_iff, place_eq_ok_iff] at rest
        obtain ⟨⟨⟩, ⟨parent, name, inner, arrives, foundTarget, permitted, free⟩,
          ⟨targetParent, targetName⟩, again, rest⟩ := rest
        rw [arrives] at again
        cases again
        split at rest
        next moved held =>
          cases rest
          refine ⟨outer, inner, leaves, landing, elsewhere, by simpa using notBelow, foundSource,
            mayLeave, held, arrives, foundTarget, permitted, ?_⟩
          rcases free with absent | ⟨file, known, -, replaceable⟩
          · exact Or.inl absent
          · exact Or.inr ⟨file, known, replaceable⟩
        · cases rest
      · cases rest

namespace Move.Checked

variable {tree : Tree} {source target user : String} {move : Move} {outer inner : Directory}

/-- The new place is not the old one and not below it. -/
theorem apart (checked : move.Checked tree source target user outer inner)
    (canonical : Path.Canonical source) (too : Path.Canonical target) :
    ¬ Path.segments move.sourceParent ++ [move.sourceName] <+:
      Path.segments move.targetParent ++ [move.targetName] := by
  have final := landing_canonical canonical too checked.landed
  have sourceNames := (canonical.split? checked.leaves).2
  have targetNames := (final.split? checked.arrives).2
  rw [← sourceNames, ← targetNames]
  rintro ⟨rest, whole⟩
  by_cases same : rest = []
  · subst same
    rw [List.append_nil] at whole
    exact checked.elsewhere (final.eq_of_segments canonical whole.symm)
  · have below := (final.isBelow_iff canonical (by simp [sourceNames])).2 ⟨rest, same, whole.symm⟩
    rw [checked.notBelow] at below
    cases below

/-- Once the node is taken out, its new place is still there and as free as before. -/
theorem found_after_drop (checked : move.Checked tree source target user outer inner)
    (canonical : Path.Canonical source) (too : Path.Canonical target) :
    ∃ after,
      (tree.changeDirectory move.sourceParent (·.drop move.sourceName)).directory
        move.targetParent = .ok after ∧
      after.access = inner.access ∧ after.get? move.targetName = inner.get? move.targetName := by
  have noDirectory : ∀ child, inner.get? move.targetName = some child →
      child.isDirectory = false := by
    intro child held
    obtain ⟨file, rfl⟩ := Directory.exists_file_of_free checked.free held
    rfl
  obtain ⟨after, found, access, entry⟩ := Directory.at?_changeAt_beside
    (Directory.keepsOthers_drop move.sourceName) (checked.apart canonical too)
    (directory_eq_ok_iff.1 checked.foundTarget) noDirectory
  refine ⟨after, ?_, access, entry⟩
  rw [directory_eq_ok_iff, root_changeDirectory]
  exact found

end Move.Checked

/-- A move takes the node out and enters it at its new place; it is never put back. -/
theorem rename_edits {source target : String} (canonical : Path.Canonical source)
    (too : Path.Canonical target) (tree : Tree) (user : String) :
    Edits user tree (tree.rename source target user).2 := by
  rw [rename]
  split
  · exact .refl
  · exact .refl
  next final move planned =>
    obtain ⟨outer, inner, checked⟩ := planMove_eq_some planned
    obtain ⟨after, found, access, entry⟩ := checked.found_after_drop canonical too
    have first : Edit user tree
        (tree.changeDirectory move.sourceParent (·.drop move.sourceName)) :=
      .drop checked.foundSource checked.mayLeave
    simp only [carryOutMove, found]
    refine .tail (.single first) ?_
    rcases checked.free with free | ⟨file, held, allowed⟩
    · have permitted : after.access.permits user .write = true := by
        rw [access]
        exact checked.permitted
      exact .enter move.node found permitted (entry.trans free)
    · have stillAllowed : after.mayDrop move.targetName user = true := by
        rw [Directory.mayDrop, access, entry]
        exact allowed
      exact .supplant move.node found stillAllowed

structure Copied (tree : Tree) (source target user final : String) (recursive : Bool)
    (after : Tree) (node : Node) (parent name : String) (inner : Directory) : Prop where
  looked : tree.lookup source = .ok node
  readable : node.access.permits user .read = true
  whole : node.isDirectory = true → recursive = true
  landed : tree.landing source target = .ok final
  elsewhere : final ≠ source
  notBelow : node.isDirectory = true → Path.isBelow final source = false
  arrives : Path.split? final = some (parent, name)
  found : tree.directory parent = .ok inner
  permitted : inner.access.permits user .write = true
  free : inner.get? name = none ∨
    ∃ file, inner.get? name = some (.file file) ∧ node.isDirectory = false ∧
      file.access.permits user .write = true
  result : after = tree.changeDirectory parent (·.put name (node.giveTo user))

theorem copy_eq_ok {tree after : Tree} {source target user final : String} {recursive : Bool}
    (copied : tree.copy source target user recursive = (.ok final, after)) :
    ∃ node parent name inner,
      Copied tree source target user final recursive after node parent name inner := by
  rw [copy, carryOut_eq_ok_iff] at copied
  simp only [bind_eq_ok_iff, require_eq_ok_iff] at copied
  obtain ⟨node, looked, ⟨⟩, readable, rest⟩ := copied
  split at rest
  · cases rest
  next whole =>
    simp only [bind_eq_ok_iff] at rest
    obtain ⟨landed, landing, rest⟩ := rest
    split at rest
    · cases rest
    next elsewhere =>
      simp only [bind_eq_ok_iff, checkLanding_eq_ok_iff, place_eq_ok_iff] at rest
      obtain ⟨⟨⟩, ⟨parent, name, inner, arrives, found, permitted, free⟩,
        ⟨again, last⟩, cut, directory, -, rest⟩ := rest
      rw [arrives] at cut
      cases cut
      cases rest
      refine ⟨node, parent, name, inner, looked, readable, ?_, landing, ?_, ?_, arrives, found,
        permitted, ?_, rfl⟩
      · intro isDirectory
        simpa [isDirectory] using whole
      · intro same
        simp [same] at elsewhere
      · intro isDirectory
        simp [isDirectory] at elsewhere
        exact elsewhere.2
      · rcases free with absent | ⟨file, held, isFile, writable⟩
        · exact Or.inl absent
        · refine Or.inr ⟨file, held, isFile, ?_⟩
          simpa [held, Node.access] using writable

/-- Where a copy landed, what was copied stands and belongs to the user. -/
theorem Copied.at?_eq {tree after : Tree} {source target user final : String} {recursive : Bool}
    {node : Node} {parent name : String} {inner : Directory}
    (copied : Copied tree source target user final recursive after node parent name inner) :
    after.root.at? (Path.segments parent ++ [name]) = some (node.giveTo user) := by
  rw [copied.result, at?_changeDirectory copied.found, Directory.at?_toNode,
    Directory.get?_put_self]

/-- What a user's copy does to a tree: nothing, a new entry, or one in the place of a file. -/
theorem copy_cases {source target : String} (canonical : Path.Canonical source)
    (too : Path.Canonical target) (tree : Tree) (user : String) (recursive : Bool) :
    Edits user tree (tree.copy source target user recursive).2 ∨
      ∃ final, (tree.copy source target user recursive).1 = .ok final ∧
        Cover user (Path.segments final) tree (tree.copy source target user recursive).2 := by
  rcases answered : tree.copy source target user recursive with ⟨outcome, after⟩
  cases outcome with
  | error fault =>
      rw [copy, carryOut_eq_error_iff] at answered
      rw [answered.2]
      exact Or.inl .refl
  | ok final =>
      obtain ⟨node, parent, name, inner, copied⟩ := copy_eq_ok answered
      have canonicalFinal := landing_canonical canonical too copied.landed
      rw [copied.result]
      rcases copied.free with free | ⟨file, held, -, writable⟩
      · exact Or.inl (.single (.enter _ copied.found copied.permitted free))
      · exact Or.inr ⟨final, rfl, parent, name, inner, file, node,
          (canonicalFinal.split? copied.arrives).2, copied.found, copied.permitted, held, writable,
          rfl⟩

end Tree

/-- What a user's request does to a tree. -/
theorem Operation.perform_cases {operation : Operation} (canonical : operation.Canonical)
    (oracle : ContentOracle) (user : String) (tree : Tree) :
    Tree.Edits user tree (operation.perform oracle user tree).2 ∨
      ∃ source target recursive final, operation = .copy source target recursive ∧
        (operation.perform oracle user tree).1 = .landed (.ok final) ∧
        Tree.Cover user (Path.segments final) tree (operation.perform oracle user tree).2 := by
  cases operation with
  | enter path => exact Or.inl .refl
  | list path => exact Or.inl .refl
  | content path => exact Or.inl .refl
  | read path => exact Or.inl .refl
  | mkdir path => exact Or.inl (tree.mkdir_edits path user)
  | touch path => exact Or.inl (Tree.touch_edits canonical tree user)
  | write path content => exact Or.inl (tree.write_edits path content user)
  | remove path recursive => exact Or.inl (tree.remove_edits path user recursive)
  | rename source target => exact Or.inl (Tree.rename_edits canonical.1 canonical.2 tree user)
  | copy source target recursive =>
      rcases Tree.copy_cases canonical.1 canonical.2 tree user recursive with
        edits | ⟨final, answered, cover⟩
      · exact Or.inl edits
      · exact Or.inr ⟨source, target, recursive, final, rfl, congrArg Reply.landed answered, cover⟩
  | chmod path spec => exact Or.inl (tree.chmod_edits path spec user)

end PuzzleShell

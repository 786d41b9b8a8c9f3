import PuzzleShell.Proofs.Tree.Locality
import PuzzleShell.Proofs.World

/-!
# Moving and copying whole subtrees

A move carries a node with everything below it to its new place and leaves nothing at the old one.
A copy leaves the original as it is, and what it makes differs from the original in the owner and
the group of every node alone.  Where something lands there was nothing before, or a file that is
lost by it; every other node is still there.
-/

namespace PuzzleShell

namespace Path

def onward (path : String) (names : List String) : String :=
  names.foldl join path

theorem Canonical.onward {path : String} {names : List String} (canonical : Canonical path)
    (valid : Valid names) :
    Canonical (onward path names) ∧ segments (onward path names) = segments path ++ names := by
  induction names generalizing path with
  | nil => exact ⟨canonical, (List.append_nil _).symm⟩
  | cons name rest ih =>
      obtain ⟨named, later⟩ := List.forall_mem_cons.1 valid
      obtain ⟨further, names⟩ := canonical.join named
      obtain ⟨reached, whole⟩ := ih further later
      refine ⟨reached, whole.trans ?_⟩
      rw [names, List.append_assoc, List.singleton_append]

end Path

namespace Node

def Face.givenTo (user : String) : Face → Face
  | .file f => .file { f with access := { f.access with owner := user, group := user } }
  | .directory access names =>
      .directory { access with owner := user, group := user } names

theorem face_giveTo (user : String) (node : Node) :
    (node.giveTo user).face = node.face.givenTo user := by
  cases node with
  | file file => rfl
  | directory access entries =>
      rw [giveTo, face, face, Face.givenTo, giveEntriesTo_eq_map, Roster.names, Roster.names,
        List.map_map]
      rfl

theorem get?_giveEntriesTo (user name : String) (entries : List (String × Node)) :
    Roster.get? name (giveEntriesTo user entries) =
      (Roster.get? name entries).map (giveTo user) := by
  induction entries with
  | nil => rfl
  | cons entry rest ih =>
      obtain ⟨known, node⟩ := entry
      rw [giveEntriesTo, Roster.get?_cons, Roster.get?_cons, ih]
      split <;> rfl

/-- What stands at a place of a node that was given away was given away with it. -/
theorem at?_giveTo (user : String) (place : List String) (node : Node) :
    (node.giveTo user).at? place = (node.at? place).map (giveTo user) := by
  induction place generalizing node with
  | nil => rfl
  | cons name rest ih =>
      cases node with
      | file file => rfl
      | directory access entries =>
          rw [giveTo, at?_cons_directory, at?_cons_directory, get?_giveEntriesTo]
          cases Roster.get? name entries with
          | none => rfl
          | some child => exact ih child

end Node

namespace Tree

variable {tree after : Tree} {source target final path parent name user : String} {node : Node}
  {inner : Directory}

def EndsUp (tree : Tree) (source target final : String) : Prop :=
  ∃ name, (Path.segments source).getLast? = some name ∧
    final = if tree.hasDirectory target then Path.join target name else target

theorem endsUp_of_landing (canonical : Path.Canonical source)
    (landed : tree.landing source target = .ok final) : tree.EndsUp source target final := by
  rw [landing, bind_eq_ok_iff] at landed
  obtain ⟨⟨parent, name⟩, cut, answer⟩ := landed
  refine ⟨name, ?_, (Except.ok.inj answer).symm⟩
  rw [(canonical.split? (place_eq_ok_iff.1 cut)).2]
  exact List.getLast?_concat

/-- What stands at a place where something may land, or below it, is a file at that place. -/
theorem eq_file_of_free (found : tree.directory parent = .ok inner)
    (free : ∀ child, inner.get? name = some child → ∃ file, child = .file file)
    {place : List String} (below : Path.segments parent ++ [name] <+: place)
    (standing : tree.root.at? place = some node) :
    place = Path.segments parent ++ [name] ∧ ∃ file, node = .file file := by
  obtain ⟨rest, rfl⟩ := below
  rw [List.append_assoc, Node.at?_append, directory_eq_ok_iff.1 found, Option.bind_some,
    List.singleton_append, Node.toNode_at?_cons, Option.bind_eq_some_iff] at standing
  obtain ⟨child, held, onwards⟩ := standing
  obtain ⟨file, rfl⟩ := free child held
  cases rest with
  | nil => exact ⟨List.append_nil _, file, (Option.some.inj onwards).symm⟩
  | cons first rest => cases onwards

/--
Whether a node outlasts a change at some paths, the last of which something lands at: it is still
there, with its permissions and owners, its content and its other entries, unless it is a file that
what lands takes the place of.
-/
def Outlasts (tree : Tree) (targets : List String) (final : String) (after : Tree)
    (path : String) : Prop :=
  path = final ∧ (∃ file, tree.lookup path = .ok (.file file)) ∨
    after.has path = true ∧ after.view targets path = tree.view targets path

/-- A path leads somewhere just if something is seen there. -/
theorem has_eq_isOk_view (tree : Tree) (targets : List String) (path : String) :
    tree.has path = (tree.view targets path).isOk := by
  unfold view has
  cases tree.lookup path <;> rfl

/-- What landed somewhere, with everything below it, and what became of the other nodes. -/
structure Moved (tree : Tree) (source final : String) (after : Tree) : Prop where
  found : tree.has source = true
  carried : ∀ rest, Path.Valid rest →
    (after.lookup (Path.onward final rest)).toOption =
      (tree.lookup (Path.onward source rest)).toOption
  gone : ∀ path, Path.Canonical path → Path.LeadsThrough path source → after.has path = false
  others : ∀ path, Path.Canonical path → tree.has path = true → ¬ Path.LeadsThrough path source →
    tree.Outlasts [source, final] final after path

/-- What a user's copy landed as, with everything below it, and what became of all nodes. -/
structure Duplicated (tree : Tree) (user source final : String) (after : Tree) : Prop where
  found : tree.has source = true
  carried : ∀ rest, Path.Valid rest →
    (after.lookup (Path.onward final rest)).toOption.map Node.face =
      (tree.lookup (Path.onward source rest)).toOption.map fun old => old.face.givenTo user
  kept : ∀ rest, Path.Valid rest →
    after.lookup (Path.onward source rest) = tree.lookup (Path.onward source rest)
  others : ∀ path, Path.Canonical path → tree.has path = true →
    tree.Outlasts [final] final after path

/-- What outlasts a landing: all but a file that stood just there. -/
theorem outlasts_of_changedAmong {targets : List String} (canonical : Path.Canonical path)
    (too : Path.Canonical final) (changed : ChangedAmong targets tree after)
    (arrives : Path.split? final = some (parent, name))
    (found : tree.directory parent = .ok inner)
    (free : ∀ child, inner.get? name = some child → ∃ file, child = .file file)
    (there : tree.has path = true)
    (elsewhere : ∀ target ∈ targets, target ≠ final → ¬ Path.LeadsThrough path target) :
    tree.Outlasts targets final after path := by
  have names := (too.split? arrives).2
  by_cases through : Path.LeadsThrough path final
  · rw [has_eq_isSome, Option.isSome_iff_exists] at there
    obtain ⟨node, standing⟩ := there
    rw [Path.LeadsThrough, names] at through
    obtain ⟨whole, file, rfl⟩ := eq_file_of_free found free through standing
    exact Or.inl ⟨canonical.eq_of_segments too (whole.trans names.symm), file,
      lookup_eq_ok_iff.2 standing⟩
  · have same : after.view targets path = tree.view targets path := by
      refine changed.view_eq fun target member => ?_
      by_cases last : target = final
      · exact last ▸ through
      · exact elsewhere target member last
    refine Or.inr ⟨?_, same⟩
    rw [← there, has_eq_isOk_view after targets, same, ← has_eq_isOk_view]

section Rename

variable {move : Move} {outer : Directory}

/-- A plan says where the node lands, and only if that is where it stands is there nothing to do. -/
theorem landing_of_planMove {plan : Option Move}
    (planned : tree.planMove source target user = .ok (final, plan)) :
    tree.landing source target = .ok final ∧ (plan = none → final = source) := by
  rw [planMove] at planned
  simp only [bind_eq_ok_iff] at planned
  obtain ⟨parts, -, node, -, landed, landing, rest⟩ := planned
  split at rest
  next same =>
    cases rest
    exact ⟨landing, fun _ => same⟩
  · split at rest
    · cases rest
    · obtain ⟨directory, -, rest⟩ := bind_eq_ok_iff.1 rest
      split at rest
      · simp only [bind_eq_ok_iff] at rest
        obtain ⟨-, -, parts, -, rest⟩ := rest
        split at rest
        · cases rest
          exact ⟨landing, fun nothing => by cases nothing⟩
        · cases rest
      · cases rest

/-- A move that comes off has nothing to do, or it takes the node out and enters it elsewhere. -/
theorem rename_eq_ok (canonical : Path.Canonical source) (too : Path.Canonical target)
    (moved : tree.rename source target user = (.ok final, after)) :
    tree.landing source target = .ok final ∧
      (final ≠ source → ∃ move outer inner,
        Move.Checked tree source target user move outer inner ∧ move.target = final ∧
        after = (tree.changeDirectory move.sourceParent (·.drop move.sourceName)).changeDirectory
          move.targetParent (·.put move.targetName move.node)) := by
  rw [rename] at moved
  split at moved
  · cases moved
  next final planned =>
    cases moved
    obtain ⟨landed, stays⟩ := landing_of_planMove planned
    exact ⟨landed, fun elsewhere => absurd (stays rfl) elsewhere⟩
  next final move planned =>
    obtain ⟨outer, inner, checked⟩ := planMove_eq_some planned
    obtain ⟨directory, found⟩ := exists_directory_of_planMove canonical too planned
    rw [carryOutMove_eq_ok found] at moved
    cases moved
    exact ⟨checked.landed, fun _ => ⟨move, outer, inner, checked, rfl, rfl⟩⟩

namespace Move.Checked

theorem file_of_held (checked : move.Checked tree source target user outer inner) :
    ∀ child, inner.get? move.targetName = some child → ∃ file, child = .file file :=
  fun _ held => Directory.exists_file_of_free checked.free held

theorem at?_source (checked : move.Checked tree source target user outer inner)
    (canonical : Path.Canonical source) :
    tree.root.at? (Path.segments source) = some move.node := by
  rw [at?_of_split? canonical checked.leaves checked.foundSource, checked.held]

/-- The new place is not above the old one. -/
theorem target_not_above (checked : move.Checked tree source target user outer inner)
    (canonical : Path.Canonical source) (too : Path.Canonical target) :
    ¬ Path.segments move.target <+: Path.segments source := by
  have final := landing_canonical canonical too checked.landed
  have names := (final.split? checked.arrives).2
  intro above
  rw [names] at above
  obtain ⟨whole, -⟩ := eq_file_of_free checked.foundTarget checked.file_of_held above
    (checked.at?_source canonical)
  exact checked.elsewhere (final.eq_of_segments canonical (names.trans whole.symm))

theorem target_not_below (checked : move.Checked tree source target user outer inner)
    (canonical : Path.Canonical source) (too : Path.Canonical target) :
    ¬ Path.segments source <+: Path.segments move.target := by
  have final := landing_canonical canonical too checked.landed
  rw [(canonical.split? checked.leaves).2, (final.split? checked.arrives).2]
  exact checked.apart canonical too

end Move.Checked

/-- A move to another place carries everything along, and at the old place nothing is left. -/
theorem moved_of_rename (distinct : tree.Distinct) (canonical : Path.Canonical source)
    (too : Path.Canonical target) (renamed : tree.rename source target user = (.ok final, after))
    (elsewhere : final ≠ source) : tree.Moved source final after := by
  obtain ⟨landed, moves⟩ := rename_eq_ok canonical too renamed
  obtain ⟨move, outer, inner, checked, rfl, result⟩ := moves elsewhere
  have landsWell := landing_canonical canonical too landed
  have stood := checked.at?_source canonical
  obtain ⟨between, found, -, -⟩ := checked.found_after_drop canonical too
  have lands : after.root.at? (Path.segments move.target) = some move.node := by
    rw [result, at?_put_of_split? landsWell checked.arrives found]
  have left : after.root.at? (Path.segments source) = none := by
    have arrival : ChangedAmong [move.target]
        (tree.changeDirectory move.sourceParent (·.drop move.sourceName)) after := by
      rw [result]
      exact changedAmong_put landsWell checked.arrives (List.mem_singleton_self _) _ _
    rw [arrival.at?_eq (by simpa using checked.target_not_above canonical too)
      (by simpa using checked.target_not_below canonical too),
      at?_changeDirectory_of_split? canonical checked.leaves checked.foundSource,
      distinct.get?_drop_self checked.foundSource]
  refine ⟨?_, ?_, ?_, ?_⟩
  · rw [has_eq_isSome, stood]
    rfl
  · intro rest valid
    rw [toOption_lookup, toOption_lookup, (landsWell.onward valid).2, (canonical.onward valid).2,
      Node.at?_append, lands, Node.at?_append, stood]
  · rintro path - ⟨rest, whole⟩
    rw [has_eq_isSome, ← whole, Node.at?_append, left]
    rfl
  · intro path known there notThrough
    refine outlasts_of_changedAmong known landsWell (rename_changed canonical too renamed)
      checked.arrives checked.foundTarget checked.file_of_held there ?_
    intro other member notFinal
    rcases List.mem_cons.1 member with rfl | member
    · exact notThrough
    · exact absurd (List.mem_singleton.1 member) notFinal

end Rename

section Copy

variable {recursive : Bool}

namespace Copied

theorem file_of_held (copied : Copied tree source target user final recursive after node parent
    name inner) : ∀ child, inner.get? name = some child → ∃ file, child = .file file :=
  fun _ held => Directory.exists_file_of_free copied.free held

/-- The copy does not land above the original. -/
theorem final_not_above (copied : Copied tree source target user final recursive after node parent
    name inner) (canonical : Path.Canonical source) (too : Path.Canonical target) :
    ¬ Path.segments final <+: Path.segments source := by
  have landsWell := landing_canonical canonical too copied.landed
  have names := (landsWell.split? copied.arrives).2
  intro above
  rw [names] at above
  obtain ⟨whole, -⟩ := eq_file_of_free copied.found copied.file_of_held above
    (lookup_eq_ok_iff.1 copied.looked)
  exact copied.elsewhere (landsWell.eq_of_segments canonical (names.trans whole.symm))

/-- Nothing lands in a file, and no copy of a directory lands inside of the directory. -/
theorem final_not_below (copied : Copied tree source target user final recursive after node parent
    name inner) (canonical : Path.Canonical source) (too : Path.Canonical target) :
    ¬ Path.segments source <+: Path.segments final := by
  have landsWell := landing_canonical canonical too copied.landed
  have names := (landsWell.split? copied.arrives).2
  intro below
  have standing := lookup_eq_ok_iff.1 copied.looked
  cases node with
  | file file =>
      rw [names, List.prefix_concat_iff] at below
      rcases below with whole | ⟨rest, inside⟩
      · exact copied.elsewhere (landsWell.eq_of_segments canonical (names.trans whole.symm))
      · have found := directory_eq_ok_iff.1 copied.found
        rw [← inside, Node.at?_append, standing, Option.bind_some] at found
        cases rest <;> cases found
  | directory access entries =>
      obtain ⟨rest, whole⟩ := below
      obtain ⟨above, last, cut⟩ : ∃ above last, Path.split? source = some (above, last) := by
        have landed := copied.landed
        rw [landing, bind_eq_ok_iff] at landed
        obtain ⟨⟨above, last⟩, cut, -⟩ := landed
        exact ⟨above, last, place_eq_ok_iff.1 cut⟩
      have notRoot : Path.segments source ≠ [] := by
        rw [(canonical.split? cut).2]
        simp
      cases rest with
      | nil =>
          rw [List.append_nil] at whole
          exact copied.elsewhere (landsWell.eq_of_segments canonical whole.symm)
      | cons first rest =>
          have inside := (landsWell.isBelow_iff canonical notRoot).2 ⟨_, by simp, whole.symm⟩
          rw [copied.notBelow rfl] at inside
          cases inside

end Copied

/-- A copy is a second node like the first one with everything below it, but the user's. -/
theorem duplicated_of_copy (canonical : Path.Canonical source) (too : Path.Canonical target)
    (made : tree.copy source target user recursive = (.ok final, after)) :
    tree.EndsUp source target final ∧ tree.Duplicated user source final after := by
  obtain ⟨node, parent, name, inner, copied⟩ := copy_eq_ok made
  have landsWell := landing_canonical canonical too copied.landed
  have standing := lookup_eq_ok_iff.1 copied.looked
  have changed := copy_changed canonical too made
  have lands := copied.at?_eq
  rw [← (landsWell.split? copied.arrives).2] at lands
  refine ⟨endsUp_of_landing canonical copied.landed, ?_, ?_, ?_, ?_⟩
  · rw [has_eq_isSome, standing]
    rfl
  · intro rest valid
    rw [toOption_lookup, toOption_lookup, (landsWell.onward valid).2, (canonical.onward valid).2,
      Node.at?_append, lands, Node.at?_append, standing, Option.bind_some, Option.bind_some,
      Node.at?_giveTo, Option.map_map]
    exact congrFun (congrArg _ (funext (Node.face_giveTo user))) _
  · intro rest valid
    have further := (canonical.onward valid).2
    refine changed.lookup_eq (fun target member => ?_) fun target member => ?_ <;>
      rw [List.mem_singleton.1 member, Path.LeadsThrough, further]
    · intro through
      rcases List.prefix_or_prefix_of_prefix through (List.prefix_append _ rest) with above | below
      · exact copied.final_not_above canonical too above
      · exact copied.final_not_below canonical too below
    · intro inside
      exact copied.final_not_below canonical too ((List.prefix_append _ rest).trans inside)
  · intro path known there
    refine outlasts_of_changedAmong known landsWell changed copied.arrives copied.found
      copied.file_of_held there ?_
    intro other member notFinal
    exact absurd (List.mem_singleton.1 member) notFinal

end Copy

/--
What is moved or copied ends up inside of the target, if that is a directory, and as the target
otherwise.  A move to another place carries a node along with everything below it and leaves nothing
behind; a copy equals the original but for owner and group, which are the user, and the original
stays.  Only a file that stood where something landed is lost.
-/
theorem rename_and_copy_transport (distinct : tree.Distinct) (canonical : Path.Canonical source)
    (too : Path.Canonical target) (user : String) :
    (∀ final after, tree.rename source target user = (.ok final, after) →
      tree.EndsUp source target final ∧ (final ≠ source → tree.Moved source final after)) ∧
    ∀ recursive final after, tree.copy source target user recursive = (.ok final, after) →
      tree.EndsUp source target final ∧ tree.Duplicated user source final after := by
  constructor
  · intro final after renamed
    have landed := (rename_eq_ok canonical too renamed).1
    exact ⟨endsUp_of_landing canonical landed, moved_of_rename distinct canonical too renamed⟩
  · intro recursive final after copied
    exact duplicated_of_copy canonical too copied

/-- The privileged user moves the home of a user to `/tmp`, or the user makes a copy of it there. -/
theorem rename_and_copy_transport_home :
    (World.standard .default).Distinct ∧ Path.Canonical "/home/guest" ∧ Path.Canonical "/tmp" ∧
      (∃ after, (World.standard .default).rename "/home/guest" "/tmp" rootUser =
          (.ok "/tmp/guest", after) ∧
        (World.standard .default).Moved "/home/guest" "/tmp/guest" after) ∧
      ∃ after, (World.standard .default).copy "/home/guest" "/tmp" "guest" true =
          (.ok "/tmp/guest", after) ∧
        (World.standard .default).Duplicated "guest" "/home/guest" "/tmp/guest" after := by
  have distinct : (World.standard .default).Distinct :=
    (World.wellFormed_standard .default).nodes.distinct
  have canonical : Path.Canonical "/home/guest" ∧ Path.Canonical "/tmp" := by decide
  have transport := rename_and_copy_transport distinct canonical.1 canonical.2
  refine ⟨distinct, canonical.1, canonical.2, ⟨_, rfl, ?_⟩, _, rfl, ?_⟩
  · exact ((transport rootUser).1 _ _ rfl).2 (by decide)
  · exact ((transport "guest").2 true _ _ rfl).2

end Tree

end PuzzleShell

import PuzzleShell.Proofs.Tree.Locality
import PuzzleShell.Proofs.World
import PuzzleShell.Tree.Agreement

/-!
# Requests that do not get in each other's way

A request that changes a tree at one path is answered by what is seen there: what the path leads to,
and the directory that it is an entry of.  Another request at a path that leads neither through the
first one nor to above it is not seen from there.  So the two are answered the same in either order,
and what they leave differs at most in the order in which entries were entered.
-/

namespace PuzzleShell

namespace Node

def bare : Node → Face :=
  faceWithout fun _ => true

/-- Entries agree with others if each of them agrees with the one of its name. -/
theorem entriesAgree_of_forall {entries others : List (String × Node)}
    (each : ∀ entry ∈ entries, ∃ other, Roster.get? entry.1 others = some other ∧
      entry.2.agrees other = true) : entriesAgree entries others = true := by
  induction entries with
  | nil => rfl
  | cons entry rest ih =>
      obtain ⟨known, node⟩ := entry
      obtain ⟨first, later⟩ := List.forall_mem_cons.1 each
      obtain ⟨other, found, agreed⟩ := first
      have names : Roster.get? known others = some other := found
      rw [entriesAgree, names, ih later, Bool.and_true]
      exact agreed

/-- Names tell entries apart, so nodes agree if they show the same at every place. -/
theorem agrees_of_bare_eq {node other : Node} (distinct : node.Distinct) (too : other.Distinct)
    (same : ∀ place, (node.at? place).map bare = (other.at? place).map bare) :
    node.agrees other = true := by
  induction distinct generalizing other with
  | file file =>
      have top := same []
      cases other with
      | file another =>
          have files : file = another := by simpa [bare, faceWithout] using top
          simpa [agrees] using files
      | directory access entries => simp [bare, faceWithout] at top
  | @directory access entries apart below ih =>
      have top := same []
      cases too with
      | file another => simp [bare, faceWithout] at top
      | @directory otherAccess others apartToo belowToo =>
          have accesses : access = otherAccess := by simpa [bare, faceWithout] using top
          have inside : ∀ name rest, ((Roster.get? name entries).bind (at? rest)).map bare =
              ((Roster.get? name others).bind (at? rest)).map bare := by
            intro name rest
            have onwards := same (name :: rest)
            rwa [at?_cons_directory, at?_cons_directory] at onwards
          have known : ∀ name, (Roster.get? name entries).isSome =
              (Roster.get? name others).isSome := by
            intro name
            have here := congrArg Option.isSome (inside name [])
            cases first : Roster.get? name entries <;> cases second : Roster.get? name others <;>
              simp_all
          have names : (Roster.names entries).Perm (Roster.names others) := by
            refine (List.perm_ext_iff_of_nodup apart apartToo).2 fun name => ?_
            rw [← Roster.isSome_get?_iff, ← Roster.isSome_get?_iff, known]
          have lengths : entries.length = others.length := by
            simpa [Roster.names] using names.length_eq
          have each : entriesAgree entries others = true := by
            refine entriesAgree_of_forall fun entry member => ?_
            have held := Roster.get?_of_mem apart member
            obtain ⟨child, found⟩ : ∃ child, Roster.get? entry.1 others = some child := by
              rw [← Option.isSome_iff_exists, ← known, held]
              rfl
            refine ⟨child, found, ih entry member (belowToo _ (Roster.mem_of_get? found)) ?_⟩
            intro rest
            have onwards := inside entry.1 rest
            rwa [held, found] at onwards
          rw [agrees, each, accesses, lengths]
          simp

end Node

namespace Tree

variable {tree other after : Tree} {path place parent name : String} {α : Type}

/-- Trees agree if they show the same at every place. -/
theorem agrees_of_bare_eq (distinct : tree.Distinct) (too : other.Distinct)
    (same : ∀ place, (tree.root.at? place).map Node.bare = (other.root.at? place).map Node.bare) :
    tree.agrees other = true :=
  Node.agrees_of_bare_eq distinct too same

/-- Whether two trees look the same to whoever changes them at a path. -/
structure AlikeAt (path : String) (tree other : Tree) : Prop where
  here : tree.lookup path = other.lookup path
  above : ∀ parent name, Path.split? path = some (parent, name) →
    (tree.lookup parent).map Node.bare = (other.lookup parent).map Node.bare

/-- Whether two changes are answered the same and leave the same at a path. -/
def Concurs (path : String) (first second : α × Tree) : Prop :=
  first.1 = second.1 ∧
    first.2.root.at? (Path.segments path) = second.2.root.at? (Path.segments path)

namespace AlikeAt

variable (alike : AlikeAt path tree other)
include alike

theorem at?_eq : tree.root.at? (Path.segments path) = other.root.at? (Path.segments path) := by
  rw [← toOption_lookup, ← toOption_lookup, alike.here]

theorem has_eq : tree.has path = other.has path := by
  rw [has, has, alike.here]

/-- The directory of the path is found in both trees, with the same entry, or in neither. -/
theorem directory (canonical : Path.Canonical path)
    (cut : Path.split? path = some (parent, name)) :
    EndAlike (fun first second => first.access = second.access ∧ first.get? name = second.get? name)
      (tree.directory parent) (other.directory parent) := by
  refine (EndAlike.of_map_eq (alike.above parent name cut)).bind_of ?_
  intro node another looked found same
  cases node with
  | file file =>
      cases another with
      | file another => exact .error _
      | directory access entries => simp [Node.bare, Node.faceWithout] at same
  | directory access entries =>
      cases another with
      | file another => simp [Node.bare, Node.faceWithout] at same
      | directory otherAccess others =>
          have first : tree.directory parent = .ok ⟨access, entries⟩ :=
            directory_eq_ok_iff.2 (lookup_eq_ok_iff.1 looked)
          have second : other.directory parent = .ok ⟨otherAccess, others⟩ :=
            directory_eq_ok_iff.2 (lookup_eq_ok_iff.1 found)
          refine .ok ⟨by simpa [Node.bare, Node.faceWithout] using same, ?_⟩
          rw [← at?_of_split? canonical cut first, ← at?_of_split? canonical cut second,
            alike.at?_eq]

end AlikeAt

/-- Plans that end alike are carried out alike. -/
theorem concurs_carryOut {plan another : Except Fault (α × Tree)} (alike : AlikeAt path tree other)
    (ends : EndAlike (fun first second => first.1 = second.1 ∧
      first.2.root.at? (Path.segments path) = second.2.root.at? (Path.segments path))
      plan another) : Concurs path (tree.carryOut plan) (other.carryOut another) := by
  cases ends with
  | error fault => exact ⟨rfl, alike.at?_eq⟩
  | ok same => exact ⟨congrArg Except.ok same.1, same.2⟩

section Concurs

variable (canonical : Path.Canonical path) (alike : AlikeAt path tree other)
include canonical alike

theorem mkdir_concurs (user : String) :
    Concurs path (tree.mkdir path user) (other.mkdir path user) := by
  refine concurs_carryOut alike ?_
  cases cut : Path.split? path with
  | none => exact .error _
  | some parts =>
      refine (alike.directory canonical cut).bind_of ?_
      rintro first second found also ⟨access, entry⟩
      rw [access]
      refine .after fun _ => ?_
      have known : first.has parts.2 = second.has parts.2 := congrArg Option.isSome entry
      rw [known]
      split
      · exact .error _
      · refine .ok ⟨rfl, ?_⟩
        rw [at?_put_of_split? canonical cut found, at?_put_of_split? canonical cut also]

theorem touch_concurs (user : String) :
    Concurs path (tree.touch path user) (other.touch path user) := by
  refine concurs_carryOut alike ?_
  rw [alike.has_eq]
  split
  · exact .ok ⟨rfl, alike.at?_eq⟩
  · refine (EndAlike.of_eq rfl).bind_of ?_
    rintro ⟨parent, name⟩ _ cut - rfl
    refine (alike.directory canonical (place_eq_ok_iff.1 cut)).bind_of ?_
    rintro first second found also ⟨access, entry⟩
    rw [access]
    refine .after fun _ => .ok ⟨rfl, ?_⟩
    rw [at?_put_of_split? canonical (place_eq_ok_iff.1 cut) found,
      at?_put_of_split? canonical (place_eq_ok_iff.1 cut) also]

theorem write_concurs (content : Content) (user : String) :
    Concurs path (tree.write path content user) (other.write path content user) := by
  refine concurs_carryOut alike ?_
  refine (EndAlike.of_eq rfl).bind_of ?_
  rintro ⟨parent, name⟩ _ cut - rfl
  refine (alike.directory canonical (place_eq_ok_iff.1 cut)).bind_of ?_
  rintro first second found also ⟨access, entry⟩
  have written : ∀ node,
      (tree.changeDirectory parent (·.put name node)).root.at? (Path.segments path) =
        (other.changeDirectory parent (·.put name node)).root.at? (Path.segments path) := by
    intro node
    rw [at?_put_of_split? canonical (place_eq_ok_iff.1 cut) found,
      at?_put_of_split? canonical (place_eq_ok_iff.1 cut) also]
  rw [access, entry]
  cases second.get? name with
  | none => exact .after fun _ => .ok ⟨rfl, written _⟩
  | some node =>
      cases node with
      | file file => exact .after fun _ => .ok ⟨rfl, written _⟩
      | directory access entries => exact .error _

theorem remove_concurs (distinct : tree.Distinct) (too : other.Distinct) (user : String)
    (recursive : Bool) :
    Concurs path (tree.remove path user recursive) (other.remove path user recursive) := by
  refine concurs_carryOut alike ?_
  refine (EndAlike.of_eq rfl).bind_of ?_
  rintro ⟨parent, name⟩ _ cut - rfl
  refine (alike.directory canonical (place_eq_ok_iff.1 cut)).bind_of ?_
  rintro first second found also ⟨access, entry⟩
  have allowed : first.mayDrop name user = second.mayDrop name user := by
    simp only [Directory.mayDrop, access, entry]
  rw [allowed, entry]
  cases second.get? name with
  | none => exact .error _
  | some node =>
      dsimp only
      split
      · exact .error _
      · split
        · refine .ok ⟨rfl, ?_⟩
          rw [at?_changeDirectory_of_split? canonical (place_eq_ok_iff.1 cut) found,
            at?_changeDirectory_of_split? canonical (place_eq_ok_iff.1 cut) also,
            distinct.get?_drop_self found, too.get?_drop_self also]
        · exact .error _

omit canonical in
theorem chmod_concurs (spec user : String) :
    Concurs path (tree.chmod path spec user) (other.chmod path spec user) := by
  refine concurs_carryOut alike ?_
  rw [alike.here]
  refine .after fun node => ?_
  cases node.access.mode.change? spec with
  | none => exact .error _
  | some mode =>
      dsimp only
      split
      · exact .error _
      · refine .ok ⟨rfl, ?_⟩
        rw [root_changeAt, root_changeAt, Node.at?_changeAt_self, Node.at?_changeAt_self,
          alike.at?_eq]

end Concurs

/-- A change is not seen from a path that leads neither through its place nor to above it. -/
theorem ChangedAmong.alikeAt (changed : ChangedAmong [place] tree after)
    (canonical : Path.Canonical path) (notThrough : ¬ Path.LeadsThrough path place)
    (notAbove : ¬ Path.LeadsThrough place path) : AlikeAt path after tree where
  here := changed.lookup_eq (by simpa using notThrough) (by simpa using notAbove)
  above parent name cut := by
    refine changed.follow_eq ?_ (fun _ _ _ _ => rfl) parent
    rintro target known through
    rw [List.mem_singleton.1 known] at through
    refine notThrough (through.trans ?_)
    rw [(canonical.split? cut).2]
    exact List.prefix_append _ _

theorem ChangedAmong.bare_eq {names : List String} (changed : ChangedAmong [path] tree after)
    (elsewhere : ¬ Path.segments path <+: names) :
    (after.root.at? names).map Node.bare = (tree.root.at? names).map Node.bare := by
  have same := changed.follow_eq (by simpa using elsewhere) (fun _ _ _ _ => rfl) path
  rw [← Node.toOption_follow path, ← Node.toOption_follow path]
  revert same
  cases after.root.follow path names <;> cases tree.root.follow path names <;> intro same
  · rfl
  · cases same
  · cases same
  · exact congrArg some (Except.ok.inj same)

end Tree

namespace Operation

/-- The path of a request that changes a tree at one path. -/
def place? : Operation → Option String
  | .mkdir path | .touch path | .write path _ | .remove path _ | .chmod path _ => some path
  | .enter _ | .list _ | .content _ | .read _ | .rename _ _ | .copy _ _ _ => none

variable {operation : Operation} {path place : String} {tree other : Tree}

theorem canonical_of_place? (here : operation.place? = some path)
    (canonical : Path.Canonical path) : operation.Canonical := by
  cases operation <;> cases here <;> exact canonical

theorem targets_of_place? (here : operation.place? = some path) (reply : Reply) :
    operation.targets reply = [path] := by
  cases operation <;> cases here <;> rfl

theorem changedAmong_of_place? (here : operation.place? = some path)
    (canonical : Path.Canonical path) (oracle : ContentOracle) (user : String) (tree : Tree) :
    Tree.ChangedAmong [path] tree (operation.perform oracle user tree).2 := by
  have changed := perform_changed (canonical_of_place? here canonical) oracle user tree
  rwa [targets_of_place? here] at changed

theorem distinct_of_place? (here : operation.place? = some path) (distinct : tree.Distinct)
    (oracle : ContentOracle) (user : String) :
    (operation.perform oracle user tree).2.Distinct := by
  cases operation with
  | mkdir named => exact distinct.mkdir
  | touch named => exact distinct.touch
  | write named content => exact distinct.write content
  | remove named recursive => exact distinct.remove recursive
  | chmod named spec => exact distinct.chmod spec
  | enter | list | content | read | rename | copy => cases here

/-- A request is answered, and leaves at its path, what the look of the tree there decides. -/
theorem perform_concurs (here : operation.place? = some path) (canonical : Path.Canonical path)
    (alike : tree.AlikeAt path other) (distinct : tree.Distinct) (too : other.Distinct)
    (oracle : ContentOracle) (user : String) :
    Tree.Concurs path (operation.perform oracle user tree)
      (operation.perform oracle user other) := by
  cases operation with
  | mkdir named =>
      cases here
      have ends := Tree.mkdir_concurs canonical alike user
      exact ⟨congrArg Reply.done ends.1, ends.2⟩
  | touch named =>
      cases here
      have ends := Tree.touch_concurs canonical alike user
      exact ⟨congrArg Reply.done ends.1, ends.2⟩
  | write named content =>
      cases here
      have ends := Tree.write_concurs canonical alike content user
      exact ⟨congrArg Reply.done ends.1, ends.2⟩
  | remove named recursive =>
      cases here
      have ends := Tree.remove_concurs canonical alike distinct too user recursive
      exact ⟨congrArg Reply.done ends.1, ends.2⟩
  | chmod named spec =>
      cases here
      have ends := Tree.chmod_concurs alike spec user
      exact ⟨congrArg Reply.mode ends.1, ends.2⟩
  | enter | list | content | read | rename | copy => cases here

/-- Carried out after another request, a request does at its path what it does without that one. -/
theorem perform_after {first second : Operation} {tree : Tree} (distinct : tree.Distinct)
    (here : first.place? = some path) (there : second.place? = some place)
    (canonical : Path.Canonical path) (too : Path.Canonical place)
    (notThrough : ¬ Path.LeadsThrough path place) (notAbove : ¬ Path.LeadsThrough place path)
    (oracle : ContentOracle) (user other : String) :
    (first.perform oracle user (second.perform oracle other tree).2).1 =
        (first.perform oracle user tree).1 ∧
      (first.perform oracle user (second.perform oracle other tree).2).2.root.at?
          (Path.segments path) =
        (second.perform oracle other (first.perform oracle user tree).2).2.root.at?
          (Path.segments path) := by
  have unseen := changedAmong_of_place? there too oracle other
  have alike := (unseen tree).alikeAt canonical notThrough notAbove
  have concurs := perform_concurs here canonical alike
    (distinct_of_place? there distinct oracle other) distinct oracle user
  have kept := ((unseen (first.perform oracle user tree).2).alikeAt canonical notThrough
    notAbove).at?_eq
  exact ⟨concurs.1, concurs.2.trans kept.symm⟩

/--
Two requests of which each changes the tree at one path, where neither path leads through the other,
are answered the same in either order, by whomever they are made.  The trees that they leave have
the same nodes at the same paths; only the order in which a directory lists its entries may differ.
-/
theorem perform_commutes {first second : Operation} {tree : Tree} (distinct : tree.Distinct)
    (here : first.place? = some path) (there : second.place? = some place)
    (canonical : Path.Canonical path) (too : Path.Canonical place)
    (notThrough : ¬ Path.LeadsThrough path place) (notAbove : ¬ Path.LeadsThrough place path)
    (oracle : ContentOracle) (user other : String) :
    (first.perform oracle user (second.perform oracle other tree).2).1 =
        (first.perform oracle user tree).1 ∧
      (second.perform oracle other (first.perform oracle user tree).2).1 =
        (second.perform oracle other tree).1 ∧
      (second.perform oracle other (first.perform oracle user tree).2).2.agrees
        (first.perform oracle user (second.perform oracle other tree).2).2 = true := by
  obtain ⟨answers, atPath⟩ := perform_after distinct here there canonical too notThrough notAbove
    oracle user other
  obtain ⟨answersToo, atPlace⟩ := perform_after distinct there here too canonical notAbove
    notThrough oracle other user
  have one := changedAmong_of_place? here canonical oracle user
  have two := changedAmong_of_place? there too oracle other
  refine ⟨answers, answersToo, ?_⟩
  refine Tree.agrees_of_bare_eq
    (distinct_of_place? there (distinct_of_place? here distinct oracle user) oracle other)
    (distinct_of_place? here (distinct_of_place? there distinct oracle other) oracle user) ?_
  intro names
  by_cases below : Path.segments path <+: names
  · obtain ⟨rest, rfl⟩ := below
    rw [Node.at?_append, Node.at?_append, atPath]
  · by_cases belowToo : Path.segments place <+: names
    · obtain ⟨rest, rfl⟩ := belowToo
      rw [Node.at?_append, Node.at?_append, atPlace]
    · calc ((second.perform oracle other (first.perform oracle user tree).2).2.root.at? names).map
            Node.bare
          = ((first.perform oracle user tree).2.root.at? names).map Node.bare :=
            (two _).bare_eq belowToo
        _ = (tree.root.at? names).map Node.bare := (one tree).bare_eq below
        _ = ((second.perform oracle other tree).2.root.at? names).map Node.bare :=
            ((two tree).bare_eq belowToo).symm
        _ = ((first.perform oracle user (second.perform oracle other tree).2).2.root.at? names).map
            Node.bare := ((one _).bare_eq below).symm

/-- One user takes a report out of `/tmp` while another one enters a directory there. -/
theorem perform_commutes_reports :
    (World.standard .default).Distinct ∧
      (remove "/tmp/report.txt" false).place? = some "/tmp/report.txt" ∧
      (mkdir "/tmp/report").place? = some "/tmp/report" ∧
      Path.Canonical "/tmp/report.txt" ∧ Path.Canonical "/tmp/report" ∧
      ¬ Path.LeadsThrough "/tmp/report.txt" "/tmp/report" ∧
      ¬ Path.LeadsThrough "/tmp/report" "/tmp/report.txt" ∧
      (let without := ((remove "/tmp/report.txt" false).perform (fun _ => .ok "") "operator"
          (World.standard .default)).2
       let entered := ((mkdir "/tmp/report").perform (fun _ => .ok "") "guest"
          (World.standard .default)).2
       ((mkdir "/tmp/report").perform (fun _ => .ok "") "guest" without).1 = .done (.ok ()) ∧
         ((remove "/tmp/report.txt" false).perform (fun _ => .ok "") "operator" entered).1 =
           .done (.ok ()) ∧
         ((mkdir "/tmp/report").perform (fun _ => .ok "") "guest" without).2.agrees
           ((remove "/tmp/report.txt" false).perform (fun _ => .ok "") "operator" entered).2 =
             true) := by
  have distinct : (World.standard .default).Distinct :=
    (World.wellFormed_standard .default).nodes.distinct
  have apart : ¬ Path.LeadsThrough "/tmp/report.txt" "/tmp/report" ∧
      ¬ Path.LeadsThrough "/tmp/report" "/tmp/report.txt" := by decide
  have canonical : Path.Canonical "/tmp/report.txt" ∧ Path.Canonical "/tmp/report" := by decide
  obtain ⟨removed, made, agree⟩ := @perform_commutes _ _ (remove "/tmp/report.txt" false)
    (mkdir "/tmp/report") _ distinct rfl rfl canonical.1 canonical.2 apart.1 apart.2
    (fun _ => .ok "") "operator" "guest"
  exact ⟨distinct, rfl, rfl, canonical.1, canonical.2, apart.1, apart.2, made.trans rfl,
    removed.trans rfl, agree⟩

end Operation

end PuzzleShell

import PuzzleShell.Proofs.Tree.Alike
import PuzzleShell.Proofs.Tree.Edit
import PuzzleShell.World

/-!
# Texts that a user has no part in

What a user is answered does not depend on the texts of files that the user neither owns nor may
read, and no request moves such a text into a file that the user may read, with one exception: a
copy of a directory is checked at the directory alone, and gives the user everything below it.
-/

namespace PuzzleShell

namespace Node

mutual

/-- Whether a text that a user has no part in stands at a node or below it. -/
def conceals (user : String) : Node → Bool
  | .file f =>
      f.access.owner ≠ user && !f.access.permits user .read &&
        match f.content with
        | .inline text => text ≠ ""
        | _ => false
  | .directory _ entries => entriesConceal user entries

def entriesConceal (user : String) : List (String × Node) → Bool
  | [] => false
  | (_, node) :: rest => conceals user node || entriesConceal user rest

end

variable {user : String}

mutual

/-- A node in which there is no text to hide is alike to itself alone. -/
theorem Alike.eq_of_not_conceals {node other : Node} (alike : Alike user node other)
    (plain : node.conceals user = false) : node = other := by
  cases alike with
  | same f => rfl
  | @hidden access size text other foreign denied sized =>
      have empty : text = "" := by simpa [conceals, foreign, denied] using plain
      subst empty
      rw [String.utf8ByteSize_empty, eq_comm, String.utf8ByteSize_eq_zero_iff] at sized
      rw [sized]
  | directory access inside => rw [inside.eq_of_not_conceals plain]

theorem EntriesAlike.eq_of_not_conceals {entries others : List (String × Node)}
    (alike : EntriesAlike user entries others) (plain : entriesConceal user entries = false) :
    entries = others := by
  cases alike with
  | nil => rfl
  | cons name first later =>
      rw [entriesConceal, Bool.or_eq_false_iff] at plain
      rw [first.eq_of_not_conceals plain.1, later.eq_of_not_conceals plain.2]

end

mutual

theorem conceals_giveTo : ∀ node : Node, (node.giveTo user).conceals user = false
  | .file f => by simp [giveTo, conceals]
  | .directory access entries => entriesConceal_giveEntriesTo entries

theorem entriesConceal_giveEntriesTo : ∀ entries : List (String × Node),
    entriesConceal user (giveEntriesTo user entries) = false
  | [] => rfl
  | (name, node) :: rest => by
      rw [giveEntriesTo, entriesConceal, conceals_giveTo node, entriesConceal_giveEntriesTo rest]
      rfl

end

/-- What belongs to the user through and through is alike to itself alone. -/
theorem Alike.giveTo_eq {node other : Node}
    (alike : Alike user (node.giveTo user) (other.giveTo user)) :
    node.giveTo user = other.giveTo user :=
  alike.eq_of_not_conceals (conceals_giveTo node)

theorem exists_utf8ByteSize_eq (size : Nat) : ∃ text : String, text.utf8ByteSize = size := by
  induction size with
  | zero => exact ⟨"", rfl⟩
  | succ size ih =>
      obtain ⟨text, sized⟩ := ih
      refine ⟨text ++ "a", ?_⟩
      rw [String.utf8ByteSize_append, sized]
      rfl

/-- A text that is not empty has another one of its size beside it. -/
theorem exists_other_text {text : String} (filled : text ≠ "") :
    ∃ other : String, text.utf8ByteSize = other.utf8ByteSize ∧ text ≠ other := by
  have positive : text.utf8ByteSize ≠ 0 := by
    rw [Ne, String.utf8ByteSize_eq_zero_iff]
    exact filled
  obtain ⟨rest, sized⟩ := exists_utf8ByteSize_eq (text.utf8ByteSize - 1)
  have first : ("a" ++ rest).utf8ByteSize = text.utf8ByteSize := by
    rw [String.utf8ByteSize_append, sized]
    have one : "a".utf8ByteSize = 1 := rfl
    omega
  have second : ("b" ++ rest).utf8ByteSize = text.utf8ByteSize := by
    rw [String.utf8ByteSize_append, sized]
    have one : "b".utf8ByteSize = 1 := rfl
    omega
  by_cases same : text = "a" ++ rest
  · refine ⟨"b" ++ rest, second.symm, ?_⟩
    intro too
    rw [same] at too
    have letters := congrArg String.toList too
    simp at letters
  · exact ⟨"a" ++ rest, first.symm, same⟩

mutual

/-- A node that conceals a text is alike to one from which the user would be given another text. -/
theorem exists_alike_giveTo_ne : ∀ {node : Node}, node.conceals user = true →
    ∃ other, Alike user node other ∧ node.giveTo user ≠ other.giveTo user
  | .file ⟨access, .inline text, size⟩, hidden => by
      simp only [conceals, Bool.and_eq_true, Bool.not_eq_true', ne_eq, decide_not] at hidden
      obtain ⟨⟨foreign, denied⟩, filled⟩ := hidden
      obtain ⟨other, sized, different⟩ := exists_other_text (by simpa using filled)
      refine ⟨_, .hidden size (by simpa using foreign) denied sized, ?_⟩
      intro same
      simp only [giveTo, Node.file.injEq, File.mk.injEq, Content.inline.injEq] at same
      exact different same.2.1
  | .file ⟨access, .secure id, size⟩, hidden => by simp [conceals] at hidden
  | .file ⟨access, .encoded id, size⟩, hidden => by simp [conceals] at hidden
  | .file ⟨access, .archive entries, size⟩, hidden => by simp [conceals] at hidden
  | .directory access entries, hidden => by
      obtain ⟨others, alike, different⟩ := exists_entriesAlike_giveEntriesTo_ne hidden
      refine ⟨_, .directory access alike, ?_⟩
      intro same
      exact different (Node.directory.inj same).2

theorem exists_entriesAlike_giveEntriesTo_ne : ∀ {entries : List (String × Node)},
    entriesConceal user entries = true →
      ∃ others, EntriesAlike user entries others ∧
        giveEntriesTo user entries ≠ giveEntriesTo user others
  | (name, node) :: rest, hidden => by
      rw [entriesConceal, Bool.or_eq_true] at hidden
      rcases hidden with first | later
      · obtain ⟨other, alike, different⟩ := exists_alike_giveTo_ne first
        refine ⟨_, .cons name alike (EntriesAlike.refl user rest), ?_⟩
        intro same
        simp only [giveEntriesTo, List.cons.injEq, Prod.mk.injEq] at same
        exact different same.1.2
      · obtain ⟨others, alike, different⟩ := exists_entriesAlike_giveEntriesTo_ne later
        refine ⟨_, .cons name (Alike.refl user node) alike, ?_⟩
        intro same
        exact different (List.cons.inj same).2

end

theorem Alike.row_eq {node other : Node} (alike : Alike user node other) (name : String) :
    Row.ofNode name node = Row.ofNode name other := by
  cases alike with
  | same f => rfl
  | hidden size foreign denied sized => simp [Row.ofNode, File.displaySize, sized]
  | directory access inside => rfl

theorem EntriesAlike.rows_eq {entries others : List (String × Node)}
    (alike : EntriesAlike user entries others) :
    entries.map (fun entry => Row.ofNode entry.1 entry.2) =
      others.map fun entry => Row.ofNode entry.1 entry.2 := by
  induction entries generalizing others with
  | nil =>
      cases alike
      rfl
  | cons entry rest ih =>
      cases alike with
      | cons name first later => rw [List.map_cons, List.map_cons, first.row_eq, ih later]

end Node

namespace Tree

variable {user : String} {tree other : Tree}

namespace Alike

theorem enter_eq (alike : Tree.Alike user tree other) (path : String) :
    tree.enter path user = other.enter path user := by
  refine EndAlike.eq ((alike.directory path).bind fun directory too related => ?_)
  rw [related.access]
  exact .of_eq rfl

theorem list_eq (alike : Tree.Alike user tree other) (path : String) :
    tree.list path user = other.list path user := by
  refine EndAlike.eq ((alike.lookup path).bind fun node found related => ?_)
  cases related with
  | same f => exact .ok rfl
  | hidden size foreign denied sized =>
      exact .ok (congrArg (fun row => [row])
        ((Node.Alike.hidden size foreign denied sized).row_eq _))
  | directory access inside => exact .after fun _ => .ok inside.rows_eq

theorem content_eq (alike : Tree.Alike user tree other) (path : String) :
    tree.content path user = other.content path user := by
  refine EndAlike.eq ((alike.lookup path).bind fun node found related => ?_)
  cases related with
  | same f => exact .after fun _ => .ok rfl
  | hidden size foreign denied sized =>
      -- Neither user gets as far as the text.
      simp only [Access.require, denied]
      exact .error _
  | directory access inside => exact .error _

theorem read_eq (alike : Tree.Alike user tree other) (path : String) (oracle : ContentOracle) :
    tree.read path user oracle = other.read path user oracle := by
  unfold Tree.read
  rw [alike.content_eq]

end Alike

def Change.Alike {α : Type} (user : String) (change another : Tree.Change α) : Prop :=
  change.1 = another.1 ∧ Tree.Alike user change.2 another.2

/--
Plans that end alike are carried out alike.  If the trees that they plan are alike on a condition,
it is only needed where the plan succeeds.
-/
theorem carryOut_alike_of {α : Type} {Given : Prop} {plan another : Except Fault (α × Tree)}
    (alike : Tree.Alike user tree other) (planned : EndAlike (fun change too =>
      change.1 = too.1 ∧ (Given → Tree.Alike user change.2 too.2)) plan another) :
    (tree.carryOut plan).1 = (other.carryOut another).1 ∧
      ((∀ value, (tree.carryOut plan).1 = .ok value → Given) →
        Tree.Alike user (tree.carryOut plan).2 (other.carryOut another).2) := by
  cases planned with
  | error fault => exact ⟨rfl, fun _ => alike⟩
  | @ok change too related =>
      refine ⟨congrArg Except.ok related.1, fun given => ?_⟩
      exact related.2 (given change.1 rfl)

theorem carryOut_alike {α : Type} {plan another : Except Fault (α × Tree)}
    (alike : Tree.Alike user tree other) (planned : EndAlike (fun change too =>
      change.1 = too.1 ∧ Tree.Alike user change.2 too.2) plan another) :
    Change.Alike user (tree.carryOut plan) (other.carryOut another) := by
  cases planned with
  | error fault => exact ⟨rfl, alike⟩
  | ok related => exact ⟨congrArg Except.ok related.1, related.2⟩

structure Move.Alike (user : String) (move other : Move) : Prop where
  node : Node.Alike user move.node other.node
  same : other = { move with node := other.node }

namespace Alike

theorem mkdir (alike : Tree.Alike user tree other) (path : String) :
    Change.Alike user (tree.mkdir path user) (other.mkdir path user) := by
  refine carryOut_alike alike ?_
  cases Path.split? path with
  | none => exact .error _
  | some parts =>
      refine (alike.directory parts.1).bind fun directory too related => ?_
      rw [related.access, related.has_eq]
      refine .after fun _ => ?_
      split
      · exact .error _
      · exact .ok ⟨rfl, alike.put _ _ (Node.Alike.refl user _)⟩

theorem touch (alike : Tree.Alike user tree other) (path : String) :
    Change.Alike user (tree.touch path user) (other.touch path user) := by
  refine carryOut_alike alike ?_
  rw [alike.has_eq]
  split
  · exact .ok ⟨rfl, alike⟩
  · refine .after fun parts => (alike.directory parts.1).bind fun directory too related => ?_
    rw [related.access]
    exact .after fun _ => .ok ⟨rfl, alike.put _ _ (Node.Alike.refl user _)⟩

theorem write (alike : Tree.Alike user tree other) (path : String) (content : Content) :
    Change.Alike user (tree.write path content user) (other.write path content user) := by
  refine carryOut_alike alike (.after fun parts => ?_)
  refine (alike.directory parts.1).bind fun directory too related => ?_
  obtain ⟨here, there⟩ | ⟨_, _, here, there, together⟩ := related.get?_cases parts.2
  · rw [here, there, related.access]
    exact .after fun _ => .ok ⟨rfl, alike.put _ _ (Node.Alike.refl user _)⟩
  · rw [here, there]
    cases together with
    | same f => exact .after fun _ => .ok ⟨rfl, alike.put _ _ (Node.Alike.refl user _)⟩
    | hidden size foreign denied sized =>
        exact .after fun _ => .ok ⟨rfl, alike.put _ _ (Node.Alike.refl user _)⟩
    | directory access inside => exact .error _

theorem remove (alike : Tree.Alike user tree other) (path : String) (recursive : Bool) :
    Change.Alike user (tree.remove path user recursive) (other.remove path user recursive) := by
  refine carryOut_alike alike (.after fun parts => ?_)
  refine (alike.directory parts.1).bind fun directory too related => ?_
  obtain ⟨here, there⟩ | ⟨_, _, here, there, together⟩ := related.get?_cases parts.2
  · rw [here, there]
    exact .error _
  · rw [here, there]
    dsimp only
    rw [together.isDirectory_eq, related.mayDrop_eq parts.2]
    split
    · exact .error _
    · split
      · exact .ok ⟨rfl, alike.drop _ _⟩
      · exact .error _

theorem chmod (notRoot : user ≠ rootUser) (alike : Tree.Alike user tree other)
    (path spec : String) :
    Change.Alike user (tree.chmod path spec user) (other.chmod path spec user) := by
  refine carryOut_alike alike ?_
  refine (alike.lookup path).bind_of fun node found here there related => ?_
  rw [related.access_eq]
  cases found.access.mode.change? spec with
  | none => exact .error _
  | some mode =>
      dsimp only
      split
      · exact .error _
      next allowed =>
        refine .ok ⟨rfl, Node.Alike.changeAt alike fun old too standing besides _ => ?_⟩
        rw [lookup_eq_ok_iff.1 here] at standing
        rw [lookup_eq_ok_iff.1 there] at besides
        cases standing
        cases besides
        cases related with
        | same f => exact .same _
        | hidden size foreign denied sized => exact absurd ⟨notRoot, foreign⟩ allowed
        | directory access inside => exact .directory _ inside

theorem landing_eq (alike : Tree.Alike user tree other) (source target : String) :
    tree.landing source target = other.landing source target := by
  unfold landing
  rw [alike.hasDirectory_eq]

theorem checkLanding_eq {node found : Node} (alike : Tree.Alike user tree other)
    (together : Node.Alike user node found) (target : String)
    {mayReplace : Directory → String → Bool}
    (same : ∀ directory too name, Directory.Alike user directory too →
      mayReplace directory name = mayReplace too name) :
    tree.checkLanding node target user mayReplace =
      other.checkLanding found target user mayReplace := by
  refine EndAlike.eq (.after fun parts => ?_)
  refine (alike.directory parts.1).bind fun directory too related => ?_
  rw [related.access, same directory too parts.2 related, together.isDirectory_eq]
  refine .after fun _ => ?_
  obtain ⟨here, there⟩ | ⟨_, _, here, there, beside⟩ := related.get?_cases parts.2
  · rw [here, there]
    exact .ok rfl
  · rw [here, there]
    cases beside with
    | same f => exact .of_eq rfl
    | hidden size foreign denied sized => exact .of_eq rfl
    | directory access inside => exact .error _

theorem planMove (alike : Tree.Alike user tree other) (source target : String) :
    EndAlike (fun plan too => plan.1 = too.1 ∧ Option.Rel (Move.Alike user) plan.2 too.2)
      (tree.planMove source target user) (other.planMove source target user) := by
  refine .after fun parts => (alike.lookup source).bind fun node found related => ?_
  rw [alike.landing_eq]
  refine .after fun final => ?_
  split
  · exact .ok ⟨rfl, .none⟩
  · split
    · exact .error _
    · refine (alike.directory parts.1).bind fun directory too beside => ?_
      rw [beside.mayDrop_eq]
      split
      · rw [alike.checkLanding_eq related final fun _ _ name along => along.mayDrop_eq name]
        refine .after fun _ => .after fun ends => ?_
        obtain ⟨here, there⟩ | ⟨_, _, here, there, together⟩ := beside.get?_cases parts.2
        · rw [here, there]
          exact .error _
        · rw [here, there]
          exact .ok ⟨rfl, .some ⟨together, rfl⟩⟩
      · exact .error _

theorem carryOutMove {move another : Move} (alike : Tree.Alike user tree other)
    (together : Move.Alike user move another) :
    Change.Alike user (tree.carryOutMove move) (other.carryOutMove another) := by
  obtain ⟨related, same⟩ := together
  rw [same]
  have without := alike.drop move.sourceParent move.sourceName
  have arrives := without.directory move.targetParent
  unfold Tree.carryOutMove
  dsimp only
  generalize Tree.directory _ move.targetParent = left at arrives ⊢
  generalize Tree.directory _ move.targetParent = right at arrives ⊢
  cases arrives with
  | error fault => exact ⟨rfl, without.put _ _ related⟩
  | ok _ => exact ⟨rfl, without.put _ _ related⟩

theorem rename (alike : Tree.Alike user tree other) (source target : String) :
    Change.Alike user (tree.rename source target user) (other.rename source target user) := by
  have planned := alike.planMove source target
  unfold Tree.rename
  generalize tree.planMove source target user = plan at planned ⊢
  generalize other.planMove source target user = another at planned ⊢
  cases planned with
  | error fault => exact ⟨rfl, alike⟩
  | @ok plan another related =>
      obtain ⟨final, move⟩ := plan
      obtain ⟨same, moved⟩ := another
      obtain ⟨rfl, together⟩ := related
      cases together with
      | none => exact ⟨rfl, alike⟩
      | some related => exact alike.carryOutMove related

/-- A copy is answered alike, and leaves trees alike if what it gives the user is alike. -/
theorem copy (alike : Tree.Alike user tree other) (source target : String) (recursive : Bool) :
    (tree.copy source target user recursive).1 = (other.copy source target user recursive).1 ∧
      ((∀ final, (tree.copy source target user recursive).1 = .ok final →
          ∀ node found, tree.lookup source = .ok node → other.lookup source = .ok found →
            Node.Alike user (node.giveTo user) (found.giveTo user)) →
        Tree.Alike user (tree.copy source target user recursive).2
          (other.copy source target user recursive).2) := by
  refine carryOut_alike_of alike ?_
  refine (alike.lookup source).bind_of fun node found here there related => ?_
  rw [related.access_eq, related.isDirectory_eq, alike.landing_eq]
  refine .after fun _ => ?_
  split
  · exact .error _
  · refine .after fun final => ?_
    split
    · exact .error _
    · rw [alike.checkLanding_eq related]
      · refine .after fun _ => .after fun parts => ?_
        refine (alike.directory parts.1).bind fun directory too _ => ?_
        exact .ok ⟨rfl, fun given => alike.put _ _ (given node found here there)⟩
      · intro directory too name beside
        obtain ⟨here, there⟩ | ⟨_, _, here, there, together⟩ := beside.get?_cases name
        · rw [here, there]
        · simp only [here, there, Option.any_some, together.access_eq]

end Alike

end Tree

namespace Operation

variable {oracle : ContentOracle} {user : String} {tree other : Tree}

/-- Whether a request is a copy that gives the user a text that the user has no part in. -/
def discloses (user : String) (tree : Tree) : Operation → Bool
  | .copy source target recursive =>
      match (tree.copy source target user recursive).1, tree.lookup source with
      | .ok _, .ok node => node.conceals user
      | _, _ => false
  | _ => false

theorem discloses_copy_iff {source target : String} {recursive : Bool} :
    (Operation.copy source target recursive).discloses user tree = true ↔
      (∃ final, (tree.copy source target user recursive).1 = .ok final) ∧
        ∃ node, tree.lookup source = .ok node ∧ node.conceals user = true := by
  cases copied : (tree.copy source target user recursive).1 with
  | error fault => simp [discloses, copied]
  | ok final =>
      cases looked : tree.lookup source with
      | error fault => simp [discloses, copied, looked]
      | ok node => simp [discloses, copied, looked]

/-- On trees that are alike a request that discloses nothing is answered alike and they stay so. -/
theorem perform_alike (notRoot : user ≠ rootUser) (alike : Tree.Alike user tree other)
    (operation : Operation) (discreet : operation.discloses user tree = false) :
    (operation.perform oracle user tree).1 = (operation.perform oracle user other).1 ∧
      Tree.Alike user (operation.perform oracle user tree).2
        (operation.perform oracle user other).2 := by
  cases operation with
  | enter path => exact ⟨congrArg Reply.done (alike.enter_eq path), alike⟩
  | list path => exact ⟨congrArg Reply.rows (alike.list_eq path), alike⟩
  | content path => exact ⟨congrArg Reply.content (alike.content_eq path), alike⟩
  | read path => exact ⟨congrArg Reply.text (alike.read_eq path oracle), alike⟩
  | mkdir path => exact ⟨congrArg Reply.done (alike.mkdir path).1, (alike.mkdir path).2⟩
  | touch path => exact ⟨congrArg Reply.done (alike.touch path).1, (alike.touch path).2⟩
  | write path held =>
      exact ⟨congrArg Reply.done (alike.write path held).1, (alike.write path held).2⟩
  | remove path recursive =>
      exact ⟨congrArg Reply.done (alike.remove path recursive).1, (alike.remove path recursive).2⟩
  | rename source target =>
      exact ⟨congrArg Reply.landed (alike.rename source target).1, (alike.rename source target).2⟩
  | chmod path spec =>
      exact ⟨congrArg Reply.mode (alike.chmod notRoot path spec).1,
        (alike.chmod notRoot path spec).2⟩
  | copy source target recursive =>
      obtain ⟨answered, leaves⟩ := alike.copy source target recursive
      refine ⟨congrArg Reply.landed answered, leaves fun final copied node found here there => ?_⟩
      have plain : node.conceals user = false := by
        by_contra hidden
        have disclosed := discloses_copy_iff.2 ⟨⟨final, copied⟩, node, here, by simpa using hidden⟩
        rw [discreet] at disclosed
        cases disclosed
      have related := alike.lookup source
      rw [here, there] at related
      cases related with
      | ok related =>
          rw [related.eq_of_not_conceals plain]
          exact Node.Alike.refl user _

/-- A copy that discloses a text leaves a tree that shows the user which text it was. -/
theorem exists_alike_of_discloses {operation : Operation}
    (disclosed : operation.discloses user tree = true) :
    ∃ other, Tree.Alike user tree other ∧
      ((operation.perform oracle user tree).1 = (operation.perform oracle user other).1 →
        ¬ Tree.Alike user (operation.perform oracle user tree).2
          (operation.perform oracle user other).2) := by
  cases operation with
  | copy source target recursive =>
      obtain ⟨⟨final, copied⟩, node, looked, hidden⟩ := discloses_copy_iff.1 disclosed
      obtain ⟨found, related, different⟩ := Node.exists_alike_giveTo_ne hidden
      have standing := Tree.lookup_eq_ok_iff.1 looked
      refine ⟨tree.changeAt source fun _ => found, ?_, ?_⟩
      · refine Node.alike_changeAt_self fun seen there => ?_
        rw [standing] at there
        cases there
        exact related
      · intro answered alike
        have too := (Reply.landed.inj answered).symm.trans copied
        obtain ⟨here, parent, name, inner, passed⟩ := Tree.copy_eq_ok (Prod.ext copied rfl)
        obtain ⟨there, sameParent, sameName, outer, along⟩ := Tree.copy_eq_ok (Prod.ext too rfl)
        have first : here = node := Except.ok.inj (passed.looked.symm.trans looked)
        have second : there = found := by
          have seen := along.looked
          rw [Tree.lookup_eq_ok_iff, Tree.root_changeAt, Node.at?_changeAt_self, standing] at seen
          exact (Option.some.inj seen).symm
        subst first second
        -- Both copies landed at the same place, so the two gifts would have to be alike.
        have same := passed.arrives.symm.trans along.arrives
        cases same
        have given := alike.at? (Path.segments parent ++ [name])
        rw [perform, perform, passed.at?_eq, along.at?_eq] at given
        cases given with
        | some together => exact different together.giveTo_eq
  | _ => cases disclosed

end Operation

namespace Tree

variable {oracle : ContentOracle} {user : String}

/-- Whether no request in a run discloses anything on the tree that it comes to. -/
def discreet (oracle : ContentOracle) (user : String) : List Operation → Tree → Bool
  | [], _ => true
  | operation :: rest, tree =>
      !operation.discloses user tree &&
        discreet oracle user rest (operation.perform oracle user tree).2

/-- A run in which nothing is disclosed goes alike on trees that are alike. -/
theorem run_alike (notRoot : user ≠ rootUser) {operations : List Operation} {tree other : Tree}
    (alike : Tree.Alike user tree other)
    (nothing : discreet oracle user operations tree = true) :
    (run oracle user operations tree).1 = (run oracle user operations other).1 ∧
      Tree.Alike user (run oracle user operations tree).2 (run oracle user operations other).2 := by
  induction operations generalizing tree other with
  | nil => exact ⟨rfl, alike⟩
  | cons operation rest ih =>
      rw [discreet, Bool.and_eq_true, Bool.not_eq_true'] at nothing
      obtain ⟨here, later⟩ := nothing
      obtain ⟨answered, still⟩ := operation.perform_alike notRoot alike here
      obtain ⟨others, final⟩ := ih still later
      exact ⟨congrArg₂ List.cons answered others, final⟩

/--
Runs of requests on trees that are alike are answered alike, step by step, and leave trees that are
alike, as long as no copy discloses a text.  This is as far as it goes: of every request that
discloses a text, some tree that is alike tells so.
-/
theorem run_alike_of_discreet_and_discloses_iff (notRoot : user ≠ rootUser) :
    (∀ operations tree other, Tree.Alike user tree other →
      discreet oracle user operations tree = true →
        (run oracle user operations tree).1 = (run oracle user operations other).1 ∧
          Tree.Alike user (run oracle user operations tree).2
            (run oracle user operations other).2) ∧
      ∀ (operation : Operation) (tree : Tree), operation.discloses user tree = true ↔
        ∃ other, Tree.Alike user tree other ∧
          ¬ ((operation.perform oracle user tree).1 = (operation.perform oracle user other).1 ∧
            Tree.Alike user (operation.perform oracle user tree).2
              (operation.perform oracle user other).2) := by
  constructor
  · intro operations tree other alike nothing
    exact run_alike notRoot alike nothing
  · intro operation tree
    constructor
    · intro disclosed
      obtain ⟨other, alike, apart⟩ := operation.exists_alike_of_discloses disclosed
      exact ⟨other, alike, fun both => apart both.1 both.2⟩
    · rintro ⟨other, alike, apart⟩
      by_contra plain
      rw [Bool.not_eq_true] at plain
      exact apart (operation.perform_alike notRoot alike plain)

def vault (text : String) : Tree :=
  ⟨.directory (.ownedBy .newDirectory rootUser)
    [("etc", .directory (.ownedBy .newDirectory rootUser)
       [("shadow", .newText World.privateFile rootUser text),
        ("motd", .newText .newFile rootUser "welcome")]),
     ("tmp", .directory (.ownedBy World.sharedDirectory rootUser) [])]⟩

theorem vault_alike {text other : String} (sized : text.utf8ByteSize = other.utf8ByteSize) :
    Tree.Alike "guest" (vault text) (vault other) :=
  Node.Alike.directory _ (.cons _ (.directory _
    (.cons _ (.hidden none (by decide) (by decide) sized) (.cons _ (.same _) .nil)))
      (.cons _ (.directory _ .nil) .nil))

def burglary : List Operation :=
  [.read "/etc/shadow", .copy "/etc/shadow" "/tmp" false, .list "/etc", .chmod "/etc/shadow" "644",
   .rename "/etc/shadow" "/tmp/shadow", .copy "/etc/motd" "/tmp" false, .read "/tmp/motd"]

theorem burglary_alike :
    "guest" ≠ rootUser ∧ discreet (fun _ => .ok "") "guest" burglary (vault "root:x") = true ∧
      (run (fun _ => .ok "") "guest" burglary (vault "root:x")).1 =
        (run (fun _ => .ok "") "guest" burglary (vault "root:y")).1 ∧
      (Operation.copy "/etc" "/tmp" true).discloses "guest" (vault "root:x") = true ∧
      ∃ other, Tree.Alike "guest" (vault "root:x") other ∧
        ¬ (((Operation.copy "/etc" "/tmp" true).perform (fun _ => .ok "") "guest"
            (vault "root:x")).1 =
            ((Operation.copy "/etc" "/tmp" true).perform (fun _ => .ok "") "guest" other).1 ∧
          Tree.Alike "guest"
            ((Operation.copy "/etc" "/tmp" true).perform (fun _ => .ok "") "guest"
              (vault "root:x")).2
            ((Operation.copy "/etc" "/tmp" true).perform (fun _ => .ok "") "guest" other).2) := by
  have whole := @run_alike_of_discreet_and_discloses_iff (fun _ => .ok "") "guest" (by decide)
  have quiet : discreet (fun _ => .ok "") "guest" burglary (vault "root:x") = true := by decide
  have loud : (Operation.copy "/etc" "/tmp" true).discloses "guest" (vault "root:x") = true := by
    decide
  exact ⟨by decide, quiet, (whole.1 burglary _ _ (vault_alike rfl) quiet).1, loud,
    (whole.2 _ _).1 loud⟩

/-- Two trees that are alike, and a copy after which the user reads which of them it is. -/
theorem burglary_by_copy :
    Tree.Alike "guest" (vault "root:x") (vault "root:y") ∧
      (run (fun _ => .ok "") "guest" [.copy "/etc" "/tmp" true, .read "/tmp/etc/shadow"]
        (vault "root:x")).1 ≠
      (run (fun _ => .ok "") "guest" [.copy "/etc" "/tmp" true, .read "/tmp/etc/shadow"]
        (vault "root:y")).1 := by
  refine ⟨vault_alike rfl, ?_⟩
  have first : (run (fun _ => .ok "") "guest" [.copy "/etc" "/tmp" true, .read "/tmp/etc/shadow"]
      (vault "root:x")).1 = [.landed (.ok "/tmp/etc"), .text ⟨[], .ok "root:x"⟩] := by rfl
  have second : (run (fun _ => .ok "") "guest" [.copy "/etc" "/tmp" true, .read "/tmp/etc/shadow"]
      (vault "root:y")).1 = [.landed (.ok "/tmp/etc"), .text ⟨[], .ok "root:y"⟩] := by rfl
  rw [first, second]
  simp

end Tree

end PuzzleShell

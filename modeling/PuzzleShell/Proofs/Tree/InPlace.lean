import PuzzleShell.Proofs.Tree.Edit
import PuzzleShell.World

/-!
# Operations in place

Every operation as a program that looks at the tree and edits it as it goes: what it has edited
stays edited if it ends in a fault afterwards.  The operations do just what these programs do.  All
checks come before the first edit, so a fault leaves the tree as it was.  Only a move edits the tree
twice, and the directory that the node is moved to is never lost with the node.
-/

namespace PuzzleShell

/-- A program that works on a tree in place; a fault ends it and undoes nothing. -/
abbrev InPlace := ExceptT Fault (StateM Tree)

namespace InPlace

variable {α β : Type}

def check (outcome : Except Fault α) : InPlace α :=
  ofExcept outcome

def look (question : Tree → Except Fault α) : InPlace α := do
  check (question (← get))

def edit (path : String) (change : Directory → Directory) : InPlace Unit := do
  let _ ← look (·.directory path)
  modify (·.changeDirectory path change)

def mkdir (path user : String) : InPlace Unit := do
  let some (parent, name) := Path.split? path | throw (.alreadyExists path)
  let directory ← look (·.directory parent)
  check (directory.access.require user .write path)
  if directory.has name then throw (.alreadyExists path)
  else edit parent (·.put name (.newDirectory .newDirectory user))

def touch (path user : String) : InPlace Unit := do
  if (← look fun tree => .ok (tree.has path)) then return ()
  else
    let (parent, name) ← check (Tree.place path)
    let directory ← look (·.directory parent)
    check (directory.access.require user .write path)
    edit parent (·.put name (.newText .newFile user ""))

def write (path : String) (content : Content) (user : String) : InPlace Unit := do
  let (parent, name) ← check (Tree.place path)
  let directory ← look (·.directory parent)
  match directory.get? name with
  | some (.directory _ _) => throw (.isADirectory path)
  | some (.file file) =>
      check (file.access.require user .write path)
      edit parent (·.put name (.file ⟨file.access, content, none⟩))
  | none =>
      check (directory.access.require user .write path)
      edit parent (·.put name (.newFile .newFile user content none))

def remove (path user : String) (recursive : Bool) : InPlace Unit := do
  let (parent, name) ← check (Tree.place path)
  let directory ← look (·.directory parent)
  let some node := directory.get? name | throw (.notFound path)
  if node.isDirectory && !recursive then throw (.isADirectory path)
  else if directory.mayDrop name user then edit parent (·.drop name)
  else throw (.permissionDenied path)

/-- There is no putting back here: a node whose new place is gone would be lost. -/
def rename (source target user : String) : InPlace String := do
  match ← look (·.planMove source target user) with
  | (final, none) => return final
  | (_, some move) =>
      edit move.sourceParent (·.drop move.sourceName)
      edit move.targetParent (·.put move.targetName move.node)
      return move.target

def copy (source target user : String) (recursive : Bool) : InPlace String := do
  let node ← look (·.lookup source)
  check (node.access.require user .read source)
  if node.isDirectory && !recursive then throw (.complaint (.omittedDirectory source))
  else
    let final ← look (·.landing source target)
    if final = source || node.isDirectory && Path.isBelow final source then
      throw (.complaint (.copyIntoItself source final))
    else
      look (·.checkLanding node final user fun parent name =>
        (parent.get? name).any fun old => old.access.permits user .write)
      let (parent, name) ← check (Tree.place final)
      edit parent (·.put name (node.giveTo user))
      return final

def chmod (path spec user : String) : InPlace Mode := do
  let node ← look (·.lookup path)
  let some mode := node.access.mode.change? spec | throw (.complaint (.invalidMode spec))
  if user ≠ rootUser ∧ node.access.owner ≠ user then throw (.complaint (.notOwner path))
  else
    modify (·.changeAt path fun old => old.withAccess { old.access with mode := mode })
    return mode

/-- What comes next works on the tree that the first part left, unless that ended in a fault. -/
theorem run_bind (first : InPlace α) (next : α → InPlace β) (tree : Tree) :
    (first >>= next).run.run tree =
      match first.run.run tree with
      | (.ok value, between) => (next value).run.run between
      | (.error fault, between) => (.error fault, between) := by
  rw [ExceptT.run_bind, StateT.run_bind]
  rcases first.run.run tree with ⟨outcome, between⟩
  cases outcome <;> rfl

theorem run_check (outcome : Except Fault α) (tree : Tree) :
    (check outcome).run.run tree = (outcome, tree) := by
  cases outcome <;> rfl

theorem run_look (question : Tree → Except Fault α) (tree : Tree) :
    (look question).run.run tree = (question tree, tree) :=
  run_check (question tree) tree

theorem run_edit {tree : Tree} {path : String} {directory : Directory}
    (found : tree.directory path = .ok directory) (change : Directory → Directory) :
    (edit path change).run.run tree = (.ok (), tree.changeDirectory path change) := by
  rw [edit, run_bind, run_look, found]
  rfl

/-- Whether a program ends on a tree as a plan does that is carried out there. -/
def Realizes (tree : Tree) (program : InPlace α) (plan : Except Fault (α × Tree)) : Prop :=
  program.run.run tree = tree.carryOut plan

namespace Realizes

variable {tree : Tree}

theorem fault (cause : Fault) : Realizes tree (throw cause : InPlace α) (.error cause) := rfl

theorem done (value : α) : Realizes tree (pure value) (.ok (value, tree)) := rfl

/-- A program may look at the tree where the plan asks the same. -/
theorem look {question : Tree → Except Fault β} {next : β → InPlace α}
    {plan : β → Except Fault (α × Tree)}
    (step : ∀ value, question tree = .ok value → Realizes tree (next value) (plan value)) :
    Realizes tree (InPlace.look question >>= next) (question tree >>= plan) := by
  rw [Realizes, run_bind, run_look]
  cases asked : question tree with
  | error fault => rfl
  | ok value => exact step value asked

theorem check {outcome : Except Fault β} {next : β → InPlace α}
    {plan : β → Except Fault (α × Tree)}
    (step : ∀ value, outcome = .ok value → Realizes tree (next value) (plan value)) :
    Realizes tree (InPlace.check outcome >>= next) (outcome >>= plan) :=
  @look α β tree (fun _ => outcome) next plan step

theorem edit {path : String} {directory : Directory} (found : tree.directory path = .ok directory)
    (change : Directory → Directory) :
    Realizes tree (InPlace.edit path change) (.ok ((), tree.changeDirectory path change)) :=
  run_edit found change

theorem edit_done (path : String) (change : Directory → Directory) (value : α) :
    Realizes tree (InPlace.edit path change >>= fun _ => pure value)
      (tree.directory path >>= fun _ => .ok (value, tree.changeDirectory path change)) := by
  rw [Realizes, run_bind]
  cases found : tree.directory path with
  | error cause =>
      rw [InPlace.edit, run_bind, run_look, found]
      rfl
  | ok directory =>
      rw [run_edit found]
      rfl

end Realizes

theorem run_mkdir (tree : Tree) (path user : String) :
    (mkdir path user).run.run tree = tree.mkdir path user := by
  show Realizes tree _ _
  unfold mkdir
  cases Path.split? path with
  | none => exact .fault _
  | some parts =>
      refine .look fun directory found => .check fun _ _ => ?_
      split
      · exact .fault _
      · exact .edit found _

theorem run_touch (tree : Tree) (path user : String) :
    (touch path user).run.run tree = tree.touch path user := by
  rw [touch, run_bind, run_look]
  show Realizes tree _ _
  split
  · exact .done _
  · refine .check fun ⟨parent, name⟩ cut => .look fun directory found => .check fun _ _ => ?_
    exact .edit found _

theorem run_write (tree : Tree) (path : String) (content : Content) (user : String) :
    (write path content user).run.run tree = tree.write path content user := by
  show Realizes tree _ _
  refine .check fun ⟨parent, name⟩ cut => .look fun directory found => ?_
  cases directory.get? name with
  | none => exact .check fun _ _ => .edit found _
  | some node =>
      cases node with
      | file file => exact .check fun _ _ => .edit found _
      | directory access entries => exact .fault _

theorem run_remove (tree : Tree) (path user : String) (recursive : Bool) :
    (remove path user recursive).run.run tree = tree.remove path user recursive := by
  show Realizes tree _ _
  refine .check fun ⟨parent, name⟩ cut => .look fun directory found => ?_
  cases directory.get? name with
  | none => exact .fault _
  | some node =>
      dsimp only
      split
      · exact .fault _
      · split
        · exact .edit found _
        · exact .fault _

theorem run_copy (tree : Tree) (source target user : String) (recursive : Bool) :
    (copy source target user recursive).run.run tree = tree.copy source target user recursive := by
  show Realizes tree _ _
  refine .look fun node found => .check fun _ _ => ?_
  split
  · exact .fault _
  · refine .look fun final landed => ?_
    split
    · exact .fault _
    · exact .look fun _ _ => .check fun ⟨parent, name⟩ cut => .edit_done parent _ final

theorem run_chmod (tree : Tree) (path spec user : String) :
    (chmod path spec user).run.run tree = tree.chmod path spec user := by
  show Realizes tree _ _
  refine .look fun node found => ?_
  cases node.access.mode.change? spec with
  | none => exact .fault _
  | some mode =>
      dsimp only
      split
      · exact .fault _
      · rfl

end InPlace

namespace Tree

variable {tree : Tree} {source target user final : String} {move : Move}

/-- Between canonical paths the directory that a node is moved to does not go with the node. -/
theorem exists_directory_of_planMove (canonical : Path.Canonical source)
    (too : Path.Canonical target)
    (planned : tree.planMove source target user = .ok (final, some move)) :
    ∃ directory, (tree.changeDirectory move.sourceParent (·.drop move.sourceName)).directory
      move.targetParent = .ok directory := by
  obtain ⟨outer, inner, checked⟩ := planMove_eq_some planned
  obtain ⟨after, found, -, -⟩ := checked.found_after_drop canonical too
  exact ⟨after, found⟩

/-- A move that is carried out comes to a good end. -/
theorem carryOutMove_eq_ok {directory : Directory}
    (found : (tree.changeDirectory move.sourceParent (·.drop move.sourceName)).directory
      move.targetParent = .ok directory) :
    tree.carryOutMove move =
      (.ok move.target,
        (tree.changeDirectory move.sourceParent (·.drop move.sourceName)).changeDirectory
          move.targetParent (·.put move.targetName move.node)) := by
  simp only [carryOutMove, found]

/-- A plan that fails leaves the tree alone. -/
theorem snd_carryOut_of_error {α : Type} {plan : Except Fault (α × Tree)} {fault : Fault}
    (failed : (tree.carryOut plan).1 = .error fault) : (tree.carryOut plan).2 = tree :=
  (carryOut_eq_error_iff.1 (Prod.ext failed rfl)).2

theorem snd_rename_of_error (canonical : Path.Canonical source) (too : Path.Canonical target)
    {fault : Fault} (failed : (tree.rename source target user).1 = .error fault) :
    (tree.rename source target user).2 = tree := by
  rw [rename] at failed ⊢
  split at failed
  · rfl
  · cases failed
  next final move planned =>
    obtain ⟨directory, found⟩ := exists_directory_of_planMove canonical too planned
    rw [carryOutMove_eq_ok found] at failed
    cases failed

end Tree

/-- Between canonical paths nothing has to be put back. -/
theorem InPlace.run_rename {source target : String} (canonical : Path.Canonical source)
    (too : Path.Canonical target) (tree : Tree) (user : String) :
    (rename source target user).run.run tree = tree.rename source target user := by
  rw [rename, run_bind, run_look, Tree.rename]
  rcases planned : tree.planMove source target user with cause | ⟨final, _ | move⟩
  · rfl
  · rfl
  · obtain ⟨outer, inner, checked⟩ := Tree.planMove_eq_some planned
    obtain ⟨directory, found⟩ := Tree.exists_directory_of_planMove canonical too planned
    dsimp only
    rw [run_bind, run_edit checked.foundSource, Tree.carryOutMove_eq_ok found]
    dsimp only
    rw [run_bind, run_edit found]
    rfl

def InPlace.answer {α : Type} (reply : Except Fault α → Reply) (program : InPlace α) (tree : Tree) :
    Reply × Tree :=
  let ended : Except Fault α × Tree := program.run.run tree
  (reply ended.1, ended.2)

def Fault.of? {α : Type} : Except Fault α → Option Fault
  | .ok _ => none
  | .error fault => some fault

theorem Fault.of?_eq_some_iff {α : Type} {outcome : Except Fault α} {fault : Fault} :
    Fault.of? outcome = some fault ↔ outcome = .error fault := by
  cases outcome <;> simp [Fault.of?]

def Reply.fault? : Reply → Option Fault
  | .done outcome => Fault.of? outcome
  | .rows outcome => Fault.of? outcome
  | .content outcome => Fault.of? outcome
  | .text inquiry => Fault.of? inquiry.outcome
  | .landed outcome => Fault.of? outcome
  | .mode outcome => Fault.of? outcome

namespace Operation

def performInPlace (oracle : ContentOracle) (user : String) (tree : Tree) :
    Operation → Reply × Tree
  | .mkdir path => (InPlace.mkdir path user).answer .done tree
  | .touch path => (InPlace.touch path user).answer .done tree
  | .write path held => (InPlace.write path held user).answer .done tree
  | .remove path recursive => (InPlace.remove path user recursive).answer .done tree
  | .rename source target => (InPlace.rename source target user).answer .landed tree
  | .copy source target recursive =>
      (InPlace.copy source target user recursive).answer .landed tree
  | .chmod path spec => (InPlace.chmod path spec user).answer .mode tree
  | operation => operation.perform oracle user tree

/-- The operations do what the programs do that edit the tree in place. -/
theorem performInPlace_eq {operation : Operation} (canonical : operation.Canonical)
    (oracle : ContentOracle) (user : String) (tree : Tree) :
    operation.performInPlace oracle user tree = operation.perform oracle user tree := by
  cases operation with
  | enter path => rfl
  | list path => rfl
  | content path => rfl
  | read path => rfl
  | mkdir path => rw [performInPlace, InPlace.answer, InPlace.run_mkdir, perform]
  | touch path => rw [performInPlace, InPlace.answer, InPlace.run_touch, perform]
  | write path held => rw [performInPlace, InPlace.answer, InPlace.run_write, perform]
  | remove path recursive => rw [performInPlace, InPlace.answer, InPlace.run_remove, perform]
  | rename source target =>
      rw [performInPlace, InPlace.answer, InPlace.run_rename canonical.1 canonical.2, perform]
  | copy source target recursive => rw [performInPlace, InPlace.answer, InPlace.run_copy, perform]
  | chmod path spec => rw [performInPlace, InPlace.answer, InPlace.run_chmod, perform]

theorem snd_perform_of_fault {operation : Operation} (canonical : operation.Canonical)
    {oracle : ContentOracle} {user : String} {tree : Tree} {fault : Fault}
    (failed : (operation.perform oracle user tree).1.fault? = some fault) :
    (operation.perform oracle user tree).2 = tree := by
  cases operation with
  | enter path => rfl
  | list path => rfl
  | content path => rfl
  | read path => rfl
  | mkdir path => exact Tree.snd_carryOut_of_error (Fault.of?_eq_some_iff.1 failed)
  | touch path => exact Tree.snd_carryOut_of_error (Fault.of?_eq_some_iff.1 failed)
  | write path held => exact Tree.snd_carryOut_of_error (Fault.of?_eq_some_iff.1 failed)
  | remove path recursive => exact Tree.snd_carryOut_of_error (Fault.of?_eq_some_iff.1 failed)
  | rename source target =>
      exact Tree.snd_rename_of_error canonical.1 canonical.2 (Fault.of?_eq_some_iff.1 failed)
  | copy source target recursive =>
      exact Tree.snd_carryOut_of_error (Fault.of?_eq_some_iff.1 failed)
  | chmod path spec => exact Tree.snd_carryOut_of_error (Fault.of?_eq_some_iff.1 failed)

/--
A request that is answered with a fault leaves the tree exactly as it was, also if it edits the tree
in place, and a move that passed its checks finds its new place when the node has been taken out.
-/
theorem perform_atomic {operation : Operation} (canonical : operation.Canonical)
    (oracle : ContentOracle) (user : String) (tree : Tree) :
    operation.performInPlace oracle user tree = operation.perform oracle user tree ∧
      (∀ fault, (operation.perform oracle user tree).1.fault? = some fault →
        (operation.perform oracle user tree).2 = tree) ∧
      ∀ source target final move, operation = .rename source target →
        tree.planMove source target user = .ok (final, some move) →
          ∃ directory, (tree.changeDirectory move.sourceParent (·.drop move.sourceName)).directory
            move.targetParent = .ok directory := by
  refine ⟨performInPlace_eq canonical oracle user tree, ?_, ?_⟩
  · intro fault failed
    exact snd_perform_of_fault canonical failed
  · rintro source target final move rfl planned
    exact Tree.exists_directory_of_planMove canonical.1 canonical.2 planned

/--
Who is not privileged may not move `/etc` away, and the attempt leaves no trace.  The privileged
user may, and finds the new place after `/etc` has been taken out.
-/
theorem perform_atomic_moveEtc :
    (rename "/etc" "/tmp").Canonical ∧
      ((rename "/etc" "/tmp").perform
          (fun _ => .ok "") "guest" (World.standard .default)).1.fault? =
        some (.permissionDenied "/etc") ∧
      ((rename "/etc" "/tmp").performInPlace (fun _ => .ok "") "guest"
        (World.standard .default)).2 = World.standard .default ∧
      ∃ move, (World.standard .default).planMove "/etc" "/tmp" rootUser =
          .ok ("/tmp/etc", some move) ∧
        ∃ directory, ((World.standard .default).changeDirectory move.sourceParent
          (·.drop move.sourceName)).directory move.targetParent = .ok directory := by
  have atomic := @perform_atomic (rename "/etc" "/tmp") (by decide) (fun _ => .ok "")
  have denied : ((rename "/etc" "/tmp").perform (fun _ => .ok "") "guest"
      (World.standard .default)).1.fault? = some (.permissionDenied "/etc") := by decide
  refine ⟨by decide, denied, ?_, ?_⟩
  · rw [(atomic "guest" (World.standard .default)).1]
    exact (atomic "guest" (World.standard .default)).2.1 _ denied
  · refine ⟨_, rfl, ?_⟩
    exact (atomic rootUser (World.standard .default)).2.2 _ _ _ _ rfl rfl

end Operation

end PuzzleShell

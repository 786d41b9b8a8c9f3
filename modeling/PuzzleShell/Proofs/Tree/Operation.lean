import PuzzleShell.Tree.Change
import PuzzleShell.Tree.Listing
import PuzzleShell.Proofs.Path.Canonical

/-!
# Runs of operations on a tree

Everything that a user may ask of a tree, as data, and what a whole sequence of such requests
answers and leaves behind.
-/

namespace PuzzleShell

inductive Operation where
  | enter (path : String)
  | list (path : String)
  | content (path : String)
  | read (path : String)
  | mkdir (path : String)
  | touch (path : String)
  | write (path : String) (content : Content)
  | remove (path : String) (recursive : Bool)
  | rename (source target : String)
  | copy (source target : String) (recursive : Bool)
  | chmod (path spec : String)

inductive Reply where
  | done (outcome : Except Fault Unit)
  | rows (outcome : Except Fault (List Row))
  | content (outcome : Except Fault Content)
  /-- A text, with the questions that its reading put to the oracle. -/
  | text (inquiry : Inquiry String)
  /-- The path where something moved or copied ended up. -/
  | landed (outcome : Except Fault String)
  | mode (outcome : Except Fault Mode)

namespace Operation

/-- Whether all paths of a request are canonical, as those of every command are. -/
def Canonical : Operation → Prop
  | .enter path | .list path | .content path | .read path | .mkdir path | .touch path
  | .write path _ | .remove path _ | .chmod path _ => Path.Canonical path
  | .rename source target | .copy source target _ => Path.Canonical source ∧ Path.Canonical target

instance : DecidablePred Canonical
  | .enter path | .list path | .content path | .read path | .mkdir path | .touch path
  | .write path _ | .remove path _ | .chmod path _ =>
      inferInstanceAs (Decidable (Path.Canonical path))
  | .rename source target | .copy source target _ =>
      inferInstanceAs (Decidable (Path.Canonical source ∧ Path.Canonical target))

def perform (oracle : ContentOracle) (user : String) (tree : Tree) : Operation → Reply × Tree
  | .enter path => (.done (tree.enter path user), tree)
  | .list path => (.rows (tree.list path user), tree)
  | .content path => (.content (tree.content path user), tree)
  | .read path => (.text (tree.read path user oracle), tree)
  | .mkdir path => (.done (tree.mkdir path user).1, (tree.mkdir path user).2)
  | .touch path => (.done (tree.touch path user).1, (tree.touch path user).2)
  | .write path held =>
      (.done (tree.write path held user).1, (tree.write path held user).2)
  | .remove path recursive =>
      (.done (tree.remove path user recursive).1, (tree.remove path user recursive).2)
  | .rename source target =>
      (.landed (tree.rename source target user).1, (tree.rename source target user).2)
  | .copy source target recursive =>
      (.landed (tree.copy source target user recursive).1,
        (tree.copy source target user recursive).2)
  | .chmod path spec => (.mode (tree.chmod path spec user).1, (tree.chmod path spec user).2)

end Operation

namespace Tree

/-- Carry requests out one after another, whatever each of them is answered. -/
def run (oracle : ContentOracle) (user : String) : List Operation → Tree → List Reply × Tree
  | [], tree => ([], tree)
  | operation :: rest, tree =>
      let performed := operation.perform oracle user tree
      let later := run oracle user rest performed.2
      (performed.1 :: later.1, later.2)

variable {oracle : ContentOracle} {user : String}

/-- What every request preserves is preserved by every run of requests. -/
theorem run_preserves {Allowed : Operation → Prop} (Holds : Tree → Prop)
    (step : ∀ operation tree, Allowed operation → Holds tree →
      Holds (operation.perform oracle user tree).2)
    {operations : List Operation} (allowed : ∀ operation ∈ operations, Allowed operation)
    {tree : Tree} (holds : Holds tree) : Holds (run oracle user operations tree).2 := by
  induction operations generalizing tree with
  | nil => exact holds
  | cons operation rest ih =>
      have first := step operation tree (allowed operation List.mem_cons_self) holds
      exact ih (fun other member => allowed other (List.mem_cons_of_mem _ member)) first

end Tree

end PuzzleShell

import PuzzleShell.Proofs.Command.Steps
import PuzzleShell.Proofs.Path.Resolve
import PuzzleShell.World

/-!
# Entering a directory

The working directory moves to what a word means, if that may be entered.  Since a path of two
parts means what its second part means from where the first one leads, it may be entered in one step
or in two.
-/

namespace PuzzleShell.Command

open PuzzleShell.Action

variable {backend : Backend} {turn there after : Turn} {word a b cwd : String} {output : Output}

def moved (turn : Turn) (target : String) : Turn :=
  { turn with session := { turn.session with cwd := target } }

/-- A directory is entered just if it is one and its user may do so. -/
theorem run_cd_eq_ok_iff :
    (cd.run backend [word]).run.run turn = (.ok output, after) ↔
      turn.tree.enter (turn.path word) turn.session.user = .ok () ∧ output = .silent ∧
        after = moved turn (turn.path word) := by
  have ran : (cd.run backend [word]).run.run turn =
      match ended (turn.tree.enter (turn.path word) turn.session.user) with
      | .ok () => (.ok .silent, moved turn (turn.path word))
      | .error failure => (.error failure, turn) := by
    simp only [cd, run_bind, run_get, run_ofExcept, Turn.path]
    cases turn.tree.enter (Path.resolve word turn.session.cwd) turn.session.user <;> rfl
  rw [ran]
  cases turn.tree.enter (turn.path word) turn.session.user with
  | error fault =>
      constructor
      · intro done
        cases done
      · rintro ⟨entered, -⟩
        cases entered
  | ok entered =>
      constructor
      · rintro ⟨⟩
        exact ⟨rfl, rfl, rfl⟩
      · rintro ⟨-, rfl, rfl⟩
        rfl

/-- Someone who has come to the first part of a path enters the whole path by its second part. -/
theorem run_cd_append (nonempty : a ≠ "") (relative : Path.Relative b)
    (entered : (cd.run backend [a]).run.run turn = (.ok .silent, there)) :
    (cd.run backend [b]).run.run there = (.ok output, after) ↔
      (cd.run backend [a ++ "/" ++ b]).run.run turn = (.ok output, after) := by
  obtain ⟨-, -, rfl⟩ := run_cd_eq_ok_iff.1 entered
  have target : (moved turn (turn.path a)).path b = turn.path (a ++ "/" ++ b) :=
    (Path.resolve_append nonempty relative turn.session.cwd).symm
  rw [run_cd_eq_ok_iff, run_cd_eq_ok_iff, target]
  rfl

/--
Whatever is typed in a canonical directory means a path that is written canonically and means itself
in every other one.  A path of two parts, of which the second one is seen from where the first one
leads, may be resolved in two steps, and entered in two steps.
-/
theorem resolve_canonicalizes (canonical : Path.Canonical cwd) :
    (∀ input, Path.Spelled (Path.resolve input cwd) ∧ ∀ other, Path.Canonical other →
      Path.resolve (Path.resolve input cwd) other = Path.resolve input cwd) ∧
    ∀ a b, a ≠ "" → Path.Relative b →
      Path.resolve (a ++ "/" ++ b) cwd = Path.resolve b (Path.resolve a cwd) ∧
      ∀ backend turn there, turn.session.cwd = cwd →
        (cd.run backend [a]).run.run turn = (.ok .silent, there) → ∀ output after,
          (cd.run backend [b]).run.run there = (.ok output, after) ↔
            (cd.run backend [a ++ "/" ++ b]).run.run turn = (.ok output, after) := by
  constructor
  · intro input
    have resolved := Path.canonical_resolve input canonical
    exact ⟨Path.canonical_iff_spelled.1 resolved, fun other _ => resolved.resolve other⟩
  · intro a b nonempty relative
    refine ⟨Path.resolve_append nonempty relative cwd, ?_⟩
    rintro backend turn there rfl entered output after
    exact run_cd_append nonempty relative entered

/-- From the home of the guest, two directories up and down again, past the root and in two
steps. -/
theorem resolve_canonicalizes_wayOut :
    let turn : Turn := ⟨Session.start "guest" "/home/guest", World.standard .default, none, []⟩
    let backend : Backend := ⟨.default, fun _ => .ok "", fun _ => .ok ⟨false, none⟩⟩
    Path.Canonical "/home/guest" ∧ Path.Relative "../../.././etc/" ∧
      Path.Spelled (Path.resolve "~//x/.." "/home/guest") ∧
      Path.resolve ("..//" ++ "/" ++ "../../.././etc/") "/home/guest" = "/etc" ∧
      (cd.run backend ["..//"]).run.run turn = (.ok .silent, moved turn "/home") ∧
      (cd.run backend ["..//" ++ "/" ++ "../../.././etc/"]).run.run turn =
        (.ok .silent, moved turn "/etc") := by
  intro turn backend
  have canonical : Path.Canonical "/home/guest" := by decide
  have relative : Path.Relative "../../.././etc/" := ⟨by decide, by decide, by decide⟩
  have up : (cd.run backend ["..//"]).run.run turn = (.ok .silent, moved turn "/home") :=
    run_cd_eq_ok_iff.2 ⟨by decide +kernel, rfl, congrArg (moved turn) (by decide)⟩
  have down : (cd.run backend ["../../.././etc/"]).run.run (moved turn "/home") =
      (.ok .silent, moved turn "/etc") :=
    run_cd_eq_ok_iff.2 ⟨by decide +kernel, rfl, congrArg (moved turn) (by decide)⟩
  obtain ⟨spelled, parts⟩ := resolve_canonicalizes canonical
  obtain ⟨same, enters⟩ := parts "..//" "../../.././etc/" (by decide) relative
  refine ⟨canonical, relative, (spelled _).1, same.trans (by decide), up, ?_⟩
  exact (enters backend turn _ rfl up _ _).1 down

end PuzzleShell.Command

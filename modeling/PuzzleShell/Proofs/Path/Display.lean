import Mathlib.Data.Set.Function
import PuzzleShell.Proofs.Path.Resolve

/-!
# Paths as lists of names, and as they are shown

All functions on paths follow one model: a canonical path is the list of its names.  `join` puts a
name at the end of the list and `split?` takes it off again, and the root, the empty list, has
nothing to take off.  Home is abbreviated only where its names lead, not where its text happens to
begin another name, so an abbreviated path is read as the path that it was made from.
-/

namespace PuzzleShell.Path

variable {path input other cwd : String}

/-- Canonical paths and lists of valid names determine each other. -/
theorem segments_bijOn : Set.BijOn segments {path | Canonical path} {names | Valid names} := by
  have inverse : Set.InvOn ofSegments segments {path | Canonical path} {names | Valid names} :=
    ⟨fun _ canonical => canonical.ofSegments_segments, fun _ valid => segments_ofSegments valid⟩
  exact inverse.bijOn (fun _ canonical => canonical.valid) fun _ valid => canonical_ofSegments valid

/-- Only the root has no name to be cut off, and what is cut off can be put back. -/
theorem Canonical.split?_cases (canonical : Canonical path) :
    path = "/" ∧ Path.split? path = none ∨
      ∃ parent name, Path.split? path = some (parent, name) ∧ Canonical parent ∧
        isName name = true ∧ Path.join parent name = path := by
  obtain ⟨names, valid, rfl⟩ := canonical.exists_valid
  rcases List.eq_nil_or_concat' names with rfl | ⟨front, last, rfl⟩
  · exact Or.inl ⟨rfl, by decide⟩
  · have before : Valid front := valid.of_append_left
    exact Or.inr ⟨ofSegments front, last, split?_ofSegments valid, canonical_ofSegments before,
      valid last (by simp), join_ofSegments before last⟩

/-- Below home, the abbreviation takes the place of the home directory at the beginning. -/
theorem exists_rest_of_isBelow_home (below : isBelow path home = true) :
    ∃ rest, path = home ++ "/" ++ String.ofList rest ∧
      ("~" ++ String.ofList (path.toList.drop home.length)).toList = '~' :: '/' :: rest := by
  obtain ⟨rest, whole⟩ := List.isPrefixOf_iff_prefix.1 below
  refine ⟨rest, ?_, ?_⟩
  · rw [← String.toList_inj, String.toList_append, String.toList_ofList, whole]
  · have cut : path.toList.drop home.length = '/' :: rest := by
      rw [← whole, String.toList_append, List.append_assoc, ← String.length_toList, List.drop_left]
      rfl
    rw [cut]
    simp

/-- A canonical path stands for itself. -/
theorem Canonical.expandHome (canonical : Canonical path) : Path.expandHome path = path := by
  obtain ⟨names, -, rfl⟩ := canonical.exists_valid
  exact expandHome_of_head? (head?_ofSegments names)

/-- What is shown of a canonical path stands for that path. -/
theorem Canonical.expandHome_display (canonical : Canonical path) :
    Path.expandHome (display path) = path := by
  unfold display
  split
  next atHome => rw [atHome]; rfl
  · split
    next below =>
      obtain ⟨rest, whole, shown⟩ := exists_rest_of_isBelow_home below
      rw [expandHome_of_below shown, ← whole]
    · exact canonical.expandHome

theorem Canonical.display_ne_empty (canonical : Canonical path) : display path ≠ "" := by
  intro empty
  have shown := canonical.expandHome_display
  rw [empty] at shown
  exact canonical.ne_empty shown.symm

/-- Inputs that stand for the same text mean the same path. -/
theorem resolve_congr (nonempty : input ≠ "") (another : other ≠ "")
    (same : expandHome input = expandHome other) (cwd : String) :
    resolve input cwd = resolve other cwd := by
  rw [resolve_of_ne nonempty, resolve_of_ne another, Path.absolute, Path.absolute, same]

/-- A path as it is shown means that path to everyone. -/
theorem Canonical.resolve_display (canonical : Canonical path) (cwd : String) :
    Path.resolve (display path) cwd = path := by
  have same : Path.expandHome (display path) = Path.expandHome path :=
    canonical.expandHome_display.trans canonical.expandHome.symm
  rw [resolve_congr canonical.display_ne_empty canonical.ne_empty same, canonical.resolve]

/--
Canonical paths, which are those that are written as expected, are lists of valid names.  Joining
adds a name at the end of the list, and splitting takes the last one off whenever there is one.  A
path as it is shown means that path, whatever the working directory is.
-/
theorem canonical_as_names :
    (∀ path, Canonical path ↔ Spelled path) ∧
    Set.BijOn segments {path | Canonical path} {names | Valid names} ∧
    (∀ path name, Canonical path → isName name = true →
      Canonical (join path name) ∧ segments (join path name) = segments path ++ [name] ∧
        split? (join path name) = some (path, name)) ∧
    (∀ path, Canonical path → (split? path = none ↔ path = "/") ∧
      ∀ parent name, split? path = some (parent, name) →
        Canonical parent ∧ isName name = true ∧ join parent name = path) ∧
    ∀ path cwd, Canonical path → resolve (display path) cwd = path := by
  refine ⟨fun _ => canonical_iff_spelled, segments_bijOn, ?_, ?_, ?_⟩
  · intro path name canonical named
    obtain ⟨joined, names⟩ := canonical.join named
    exact ⟨joined, names, canonical.split?_join named⟩
  · intro path canonical
    rcases canonical.split?_cases with ⟨root, none⟩ | ⟨parent, name, cut, known⟩
    · refine ⟨iff_of_true none root, fun parent name cut => ?_⟩
      rw [none] at cut
      cases cut
    · constructor
      · refine iff_of_false (by simp [cut]) ?_
        rintro rfl
        cases cut
      · intro other last same
        rw [cut] at same
        cases same
        exact known
  · exact fun path cwd canonical => canonical.resolve_display cwd

/-- The neighbour of the home directory whose name begins like it, and a directory below home that
is named like home itself. -/
theorem canonical_as_names_guestbook :
    Canonical "/home/guestbook" ∧ isName "~" = true ∧
      Canonical (join "/home/guestbook" "~") ∧
      segments (join "/home/guestbook" "~") = ["home", "guestbook", "~"] ∧
      split? (join "/home/guestbook" "~") = some ("/home/guestbook", "~") ∧
      display "/home/guestbook" = "/home/guestbook" ∧
      resolve (display "/home/guestbook") "/tmp" = "/home/guestbook" ∧
      display "/home/guest/~" = "~/~" ∧ resolve (display "/home/guest/~") "/tmp" = "/home/guest/~" ∧
      (split? "/home/guestbook" = none ↔ "/home/guestbook" = "/") ∧
      join "/home" "guestbook" = "/home/guestbook" := by
  obtain ⟨-, -, joined, cut, shown⟩ := canonical_as_names
  have canonical : Canonical "/home/guestbook" := by decide
  have named : isName "~" = true := by decide
  obtain ⟨whole, names, parts⟩ := joined _ _ canonical named
  refine ⟨canonical, named, whole, names.trans (by decide), parts, by decide, shown _ _ canonical,
    by decide, shown _ _ (by decide), (cut _ canonical).1, ?_⟩
  exact ((cut _ canonical).2 "/home" "guestbook" (by decide)).2.2

end PuzzleShell.Path

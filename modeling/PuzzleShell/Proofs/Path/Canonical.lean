import PuzzleShell.Path
import PuzzleShell.Proofs.Text

/-!
# Canonical paths as lists of names

A canonical path and the list of names that it leads through determine each other.  The functions
on paths become functions on lists: `split?` cuts the last name off, `join` adds one, and a path
is below another one if its list begins with the other list and goes on.  Whatever is typed means a
canonical path to someone whose working directory is one.
-/

namespace PuzzleShell.Path

def Valid (names : List String) : Prop :=
  ∀ name ∈ names, isName name = true

theorem Valid.of_append_left {names others : List String} (valid : Valid (names ++ others)) :
    Valid names :=
  fun name member => valid name (List.mem_append_left _ member)

theorem Valid.append {names others : List String} (first : Valid names) (second : Valid others) :
    Valid (names ++ others) := by
  intro name member
  rcases List.mem_append.1 member with left | right
  · exact first name left
  · exact second name right

theorem ne_empty_of_isName {name : String} (named : isName name = true) : name ≠ "" := by
  intro empty
  simp [isName, empty] at named

theorem slash_not_mem_of_isName {name : String} (named : isName name = true) :
    '/' ∉ name.toList := by
  intro member
  simp [isName, member] at named

/-- The pieces of a canonical path: nothing in front of the first slash, then the names. -/
theorem pieces_ofSegments {names : List String} (valid : Valid names) (nonempty : names ≠ []) :
    pieces (ofSegments names) = [] :: names.map String.toList := by
  have noSlash : ∀ piece ∈ names.map String.toList, '/' ∉ piece := by
    intro piece member
    obtain ⟨name, known, rfl⟩ := List.mem_map.1 member
    exact slash_not_mem_of_isName (valid name known)
  have spelled : (ofSegments names).toList =
      '/' :: ['/'].intercalate (names.map String.toList) := by
    rw [ofSegments, if_neg (by simpa using nonempty)]
    simp
  rw [pieces, spelled, List.splitOn_cons_eq_if_modifyHead, if_pos (by simp),
    List.splitOn_intercalate '/' noSlash (by simpa using nonempty)]

/-- The names of a canonical path are those that it was built from. -/
theorem segments_ofSegments {names : List String} (valid : Valid names) :
    segments (ofSegments names) = names := by
  cases names with
  | nil => decide
  | cons first rest =>
      have kept : ((first :: rest).map String.toList).filter (fun piece => !piece.isEmpty) =
          (first :: rest).map String.toList := by
        rw [List.filter_eq_self]
        intro piece member
        obtain ⟨name, known, rfl⟩ := List.mem_map.1 member
        simpa using ne_empty_of_isName (valid name known)
      rw [segments, pieces_ofSegments valid (by simp), List.filter_cons_of_neg (by simp), kept,
        List.map_map]
      simp

theorem Canonical.exists_valid {path : String} (canonical : Canonical path) :
    ∃ names, Valid names ∧ path = ofSegments names :=
  canonical

theorem Canonical.valid {path : String} (canonical : Canonical path) : Valid (segments path) := by
  obtain ⟨names, valid, rfl⟩ := canonical.exists_valid
  rw [segments_ofSegments valid]
  exact valid

/-- A canonical path is written from its names. -/
theorem Canonical.ofSegments_segments {path : String} (canonical : Canonical path) :
    ofSegments (segments path) = path := by
  obtain ⟨names, valid, rfl⟩ := canonical.exists_valid
  rw [segments_ofSegments valid]

theorem canonical_ofSegments {names : List String} (valid : Valid names) :
    Canonical (ofSegments names) :=
  ⟨names, valid, rfl⟩

theorem canonical_iff {path : String} :
    Canonical path ↔ Valid (segments path) ∧ ofSegments (segments path) = path :=
  ⟨fun canonical => ⟨canonical.valid, canonical.ofSegments_segments⟩,
    fun spelled => spelled.2 ▸ canonical_ofSegments spelled.1⟩

instance (names : List String) : Decidable (Valid names) :=
  inferInstanceAs (Decidable (∀ name ∈ names, isName name = true))

instance (path : String) : Decidable (Canonical path) :=
  decidable_of_iff _ canonical_iff.symm

/-- Canonical paths that lead through the same names are the same. -/
theorem Canonical.eq_of_segments {path other : String} (canonical : Canonical path)
    (too : Canonical other) (same : segments path = segments other) : path = other := by
  rw [← canonical.ofSegments_segments, same, too.ofSegments_segments]

theorem ofSegments_eq_root_iff {names : List String} (valid : Valid names) :
    ofSegments names = "/" ↔ names = [] := by
  constructor
  · intro root
    rw [← segments_ofSegments valid, root]
    decide
  · rintro rfl
    rfl

/-- Writing one more name: a slash and the name follow, unless the path is the root. -/
theorem join_ofSegments {names : List String} (valid : Valid names) (name : String) :
    join (ofSegments names) name = ofSegments (names ++ [name]) := by
  cases names with
  | nil => simp [join, ofSegments]
  | cons first rest =>
      have notRoot : ofSegments (first :: rest) ≠ "/" := by
        rw [Ne, ofSegments_eq_root_iff valid]
        simp
      rw [join, if_neg notRoot, ofSegments, ofSegments, if_neg (by simp), if_neg (by simp),
        String.intercalate_append_of_ne_nil (by simp) (by simp)]
      simp [String.append_assoc]

/-- The last name is cut off, and what is left is the canonical path of the names before it. -/
theorem split?_ofSegments {names : List String} {last : String}
    (valid : Valid (names ++ [last])) :
    split? (ofSegments (names ++ [last])) = some (ofSegments names, last) := by
  have notRoot : ofSegments (names ++ [last]) ≠ "/" := by
    rw [Ne, ofSegments_eq_root_iff valid]
    simp
  rw [split?, if_neg notRoot, pieces_ofSegments valid (by simp)]
  cases names with
  | nil => simp [ofSegments]
  | cons first rest =>
      have backwards : ([] :: ((first :: rest) ++ [last]).map String.toList).reverse =
          last.toList :: (([] :: (first :: rest).map String.toList).reverse) := by
        simp
      have spelled : String.ofList (['/'].intercalate ([] :: (first :: rest).map String.toList)) =
          ofSegments (first :: rest) := by
        apply String.toList_inj.1
        rw [ofSegments, if_neg (by simp)]
        simp
      rw [backwards]
      cases reversed : ([] :: (first :: rest).map String.toList).reverse with
      | nil => simp at reversed
      | cons before others =>
          have forwards : (before :: others).reverse = [] :: (first :: rest).map String.toList := by
            rw [← reversed, List.reverse_reverse]
          simp only [forwards, spelled, String.ofList_toList]
          rw [if_neg]
          intro empty
          simp at empty

/-- A canonical path other than the root has a directory, and it leads there and on by a name. -/
theorem Canonical.split? {path parent name : String} (canonical : Canonical path)
    (cut : Path.split? path = some (parent, name)) :
    Canonical parent ∧ segments path = segments parent ++ [name] := by
  obtain ⟨names, valid, rfl⟩ := canonical.exists_valid
  rcases List.eq_nil_or_concat' names with rfl | ⟨init, last, rfl⟩
  · simp [Path.split?, ofSegments] at cut
  · rw [split?_ofSegments valid, Option.some.injEq, Prod.mk.injEq] at cut
    obtain ⟨rfl, rfl⟩ := cut
    rw [segments_ofSegments valid, segments_ofSegments valid.of_append_left]
    exact ⟨canonical_ofSegments valid.of_append_left, rfl⟩

theorem Canonical.join {path name : String} (canonical : Canonical path)
    (named : isName name = true) :
    Canonical (Path.join path name) ∧ segments (Path.join path name) = segments path ++ [name] := by
  obtain ⟨names, valid, rfl⟩ := canonical.exists_valid
  have longer : Valid (names ++ [name]) := valid.append (by simpa [Valid] using named)
  rw [join_ofSegments valid, segments_ofSegments valid, segments_ofSegments longer]
  exact ⟨canonical_ofSegments longer, rfl⟩

/-- The entry of a directory is cut into the directory and its name. -/
theorem Canonical.split?_join {path name : String} (canonical : Canonical path)
    (named : isName name = true) : Path.split? (Path.join path name) = some (path, name) := by
  obtain ⟨names, valid, rfl⟩ := canonical.exists_valid
  rw [join_ofSegments valid, split?_ofSegments (valid.append (by simpa [Valid] using named))]

/-- The text of a path begins with that of another one and a slash just where its names go on. -/
theorem isBelow_ofSegments_iff {names others : List String} (valid : Valid names)
    (known : Valid others) (nonempty : others ≠ []) :
    isBelow (ofSegments names) (ofSegments others) = true ↔
      ∃ rest, rest ≠ [] ∧ names = others ++ rest := by
  have spelled {path : List String} (given : path ≠ []) : (ofSegments path).toList =
      '/' :: ['/'].intercalate (path.map String.toList) := by
    rw [ofSegments, if_neg (by simpa using given)]
    simp
  rw [isBelow, List.isPrefixOf_iff_prefix, String.toList_append, spelled nonempty]
  constructor
  · rintro ⟨tail, whole⟩
    have given : names ≠ [] := by
      rintro rfl
      cases others with
      | nil => exact nonempty rfl
      | cons first rest => simp [ofSegments] at whole
    have split := congrArg (List.splitOn '/') whole
    have goesOn : '/' :: ['/'].intercalate (others.map String.toList) ++ "/".toList ++ tail =
        ('/' :: ['/'].intercalate (others.map String.toList)) ++ '/' :: tail := by
      simp
    have first := pieces_ofSegments known nonempty
    have second := pieces_ofSegments valid given
    rw [pieces, spelled nonempty] at first
    rw [pieces] at second
    rw [goesOn, List.splitOn_append_cons_self, first, second, List.cons_append,
      List.cons.injEq] at split
    refine ⟨(List.splitOn '/' tail).map String.ofList, by simp, ?_⟩
    have texts := congrArg (List.map String.ofList) split.2
    simpa using texts.symm
  · rintro ⟨rest, more, rfl⟩
    have longer : ofSegments (others ++ rest) =
        "/" ++ ("/".intercalate others ++ "/" ++ "/".intercalate rest) := by
      rw [ofSegments, if_neg (by simp [nonempty]),
        String.intercalate_append_of_ne_nil nonempty more]
    refine ⟨("/".intercalate rest).toList, ?_⟩
    rw [longer]
    simp

/-- A canonical path is below another one if it leads through it and on. -/
theorem Canonical.isBelow_iff {path other : String} (canonical : Canonical path)
    (too : Canonical other) (notRoot : segments other ≠ []) :
    isBelow path other = true ↔ ∃ rest, rest ≠ [] ∧ segments path = segments other ++ rest := by
  rw [← isBelow_ofSegments_iff canonical.valid too.valid notRoot, canonical.ofSegments_segments,
    too.ofSegments_segments]

theorem isName_ofList {piece : List Char} (noSlash : '/' ∉ piece) (nonempty : piece ≠ [])
    (notHere : piece ≠ ['.']) (notAbove : piece ≠ ['.', '.']) :
    isName (String.ofList piece) = true := by
  have spelled (other : String) : String.ofList piece = other ↔ piece = other.toList := by
    rw [← String.toList_inj, String.toList_ofList]
  simp [isName, spelled, noSlash, nonempty, notHere, notAbove]

/-- Going on by a piece passes one more name, or takes the last one back, or does nothing. -/
theorem valid_advance {passed : List String} {piece : List Char} (valid : Valid passed)
    (noSlash : '/' ∉ piece) : Valid (advance passed piece) := by
  unfold advance
  split
  · exact valid
  next named =>
    rw [not_or] at named
    split
    · exact fun name member => valid name (List.mem_of_mem_tail member)
    next notAbove =>
      intro name member
      rcases List.mem_cons.1 member with rfl | before
      · exact isName_ofList noSlash named.1 named.2 notAbove
      · exact valid name before

theorem valid_walk {parts : List (List Char)} (noSlash : ∀ piece ∈ parts, '/' ∉ piece) :
    Valid (walk parts) := by
  have goesOn : ∀ passed, Valid passed → Valid (parts.foldl advance passed) := by
    induction parts with
    | nil => exact fun passed valid => valid
    | cons piece rest ih =>
        intro passed valid
        refine ih (fun other member => noSlash other (List.mem_cons_of_mem _ member)) _ ?_
        exact valid_advance valid (noSlash piece List.mem_cons_self)
  intro name member
  exact goesOn [] (fun _ none => absurd none List.not_mem_nil) name (List.mem_reverse.1 member)

/-- Whatever is typed, seen from a canonical path it means a canonical path. -/
theorem canonical_resolve (input : String) {cwd : String} (canonical : Canonical cwd) :
    Canonical (resolve input cwd) := by
  unfold resolve
  split
  · exact canonical
  · exact canonical_ofSegments (valid_walk fun piece => Text.not_mem_of_mem_splitOn)

theorem canonical_home : Canonical home := by
  decide

end PuzzleShell.Path

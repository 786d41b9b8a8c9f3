import PuzzleShell.Proofs.Path.Canonical

/-!
# Where an input leads

An input is made absolute, cut into pieces and walked piece by piece, starting with no names passed.
A canonical path in front of the pieces has its names passed first and changes nothing else.  So a
path that was resolved once stays as it is, and a path in two parts may be resolved part by part.
-/

namespace PuzzleShell.Path

variable {path input cwd other a b : String} {names passed : List String}

/-- The path that an input spells, with its empty pieces and dots. -/
def absolute (input cwd : String) : String :=
  if (expandHome input).toList.head? = some '/' then expandHome input
  else cwd ++ "/" ++ expandHome input

/-- The names that are passed when a path is walked on from some others, the last name first. -/
def walkOn (passed : List String) (path : String) : List String :=
  (pieces path).foldl advance passed

theorem resolve_of_ne (nonempty : input ≠ "") (cwd : String) :
    resolve input cwd = ofSegments (walkOn [] (absolute input cwd)).reverse := by
  rw [resolve, if_neg nonempty]
  rfl

theorem valid_walkOn (path : String) : Valid (walkOn [] path).reverse :=
  valid_walk fun _ => Text.not_mem_of_mem_splitOn

/-- Walking a path of two parts is walking the one and then the other. -/
theorem walkOn_append (passed : List String) (a b : String) :
    walkOn passed (a ++ "/" ++ b) = walkOn (walkOn passed a) b := by
  have cut : pieces (a ++ "/" ++ b) = pieces a ++ pieces b := by
    rw [pieces, String.toList_append, String.toList_append, List.append_assoc]
    exact List.splitOn_append_cons_self _ _
  rw [walkOn, cut, List.foldl_append]
  rfl

theorem foldl_advance (valid : Valid names) (passed : List String) :
    (names.map String.toList).foldl advance passed = names.reverse ++ passed := by
  induction names generalizing passed with
  | nil => rfl
  | cons name rest ih =>
      obtain ⟨named, later⟩ := List.forall_mem_cons.1 valid
      have pass : advance passed name.toList = name :: passed := by
        have spelled (text : String) : name.toList = text.toList ↔ name = text := String.toList_inj
        have here := spelled "."
        have above := spelled ".."
        have nothing := spelled ""
        simp only [isName, Bool.and_eq_true, decide_eq_true_eq] at named
        rw [advance, if_neg, if_neg, String.ofList_toList]
        · exact fun dots => named.2 (above.1 dots)
        · rintro (empty | dot)
          · exact named.1.1.1 (nothing.1 empty)
          · exact named.1.2 (here.1 dot)
      rw [List.map_cons, List.foldl_cons, pass, ih later, List.reverse_cons, List.append_assoc]
      rfl

/-- On a canonical path just its names are passed. -/
theorem Canonical.walkOn (canonical : Canonical path) (passed : List String) :
    Path.walkOn passed path = (segments path).reverse ++ passed := by
  obtain ⟨names, valid, rfl⟩ := canonical.exists_valid
  rw [segments_ofSegments valid]
  cases names with
  | nil => rfl
  | cons first rest =>
      rw [Path.walkOn, pieces_ofSegments valid (List.cons_ne_nil _ _), List.foldl_cons]
      exact foldl_advance valid passed

theorem head?_ofSegments (names : List String) : (ofSegments names).toList.head? = some '/' := by
  unfold ofSegments
  split
  · decide
  · simp

theorem expandHome_of_head? (rooted : path.toList.head? = some '/') : expandHome path = path := by
  unfold expandHome
  split
  · simp_all
  · simp_all
  · rfl

theorem Canonical.absolute (canonical : Canonical path) (cwd : String) :
    Path.absolute path cwd = path := by
  obtain ⟨names, valid, rfl⟩ := canonical.exists_valid
  have rooted := head?_ofSegments names
  rw [Path.absolute, expandHome_of_head? rooted, if_pos rooted]

theorem Canonical.ne_empty (canonical : Canonical path) : path ≠ "" := by
  obtain ⟨names, valid, rfl⟩ := canonical.exists_valid
  intro empty
  have rooted := head?_ofSegments names
  simp [empty] at rooted

/-- A canonical path means itself to everyone. -/
theorem Canonical.resolve (canonical : Canonical path) (cwd : String) :
    Path.resolve path cwd = path := by
  rw [resolve_of_ne canonical.ne_empty, canonical.absolute, canonical.walkOn, List.append_nil,
    List.reverse_reverse, canonical.ofSegments_segments]

structure Relative (input : String) : Prop where
  notRooted : ¬ "/".toList <+: input.toList
  notHome : input ≠ "~"
  notBelowHome : ¬ "~/".toList <+: input.toList

theorem Relative.expandHome (relative : Relative input) : Path.expandHome input = input := by
  unfold Path.expandHome
  split
  next spelled => exact absurd (String.toList_inj.1 spelled) relative.notHome
  next rest spelled =>
    refine absurd ?_ relative.notBelowHome
    rw [spelled]
    exact ⟨rest, rfl⟩
  · rfl

theorem Relative.absolute (relative : Relative input) (cwd : String) :
    Path.absolute input cwd = cwd ++ "/" ++ input := by
  rw [Path.absolute, relative.expandHome, if_neg]
  intro rooted
  refine relative.notRooted ?_
  obtain ⟨rest, spelled⟩ := List.head?_eq_some_iff.1 rooted
  exact ⟨rest, spelled.symm⟩

/-- What is seen from a directory is walked on from there. -/
theorem Relative.resolve (relative : Relative input) (canonical : Canonical cwd) :
    Path.resolve input cwd = ofSegments (walkOn (segments cwd).reverse input).reverse := by
  by_cases empty : input = ""
  · subst empty
    have stays : walkOn (segments cwd).reverse "" = (segments cwd).reverse := rfl
    rw [stays, List.reverse_reverse, canonical.ofSegments_segments]
    rfl
  · rw [resolve_of_ne empty, relative.absolute, walkOn_append, canonical.walkOn, List.append_nil]

theorem expandHome_of_below {rest : List Char} (spelled : path.toList = '~' :: '/' :: rest) :
    expandHome path = home ++ "/" ++ String.ofList rest := by
  rw [expandHome, spelled]
  rfl

/-- Home is looked for at the beginning of an input only. -/
theorem expandHome_append (nonempty : a ≠ "") (b : String) :
    expandHome (a ++ "/" ++ b) = expandHome a ++ "/" ++ b := by
  have whole : (a ++ "/" ++ b).toList = a.toList ++ '/' :: b.toList := by simp
  conv_rhs => unfold expandHome
  split
  next spelled =>
    have below : (a ++ "/" ++ b).toList = '~' :: '/' :: b.toList := by rw [whole, spelled]; rfl
    rw [expandHome_of_below below, String.ofList_toList]
  next rest spelled =>
    have below : (a ++ "/" ++ b).toList = '~' :: '/' :: (rest ++ '/' :: b.toList) := by
      rw [whole, spelled]
      rfl
    rw [expandHome_of_below below, ← String.toList_inj]
    simp
  next notHome notBelow =>
    cases spelled : a.toList with
    | nil => exact absurd (String.toList_eq_nil_iff.1 spelled) nonempty
    | cons first rest =>
        rw [spelled, List.cons_append] at whole
        unfold expandHome
        split
        next home =>
          rw [whole] at home
          simp at home
        next more below =>
          rw [whole, List.cons.injEq] at below
          obtain ⟨rfl, goesOn⟩ := below
          cases rest with
          | nil => exact absurd spelled notHome
          | cons second rest =>
              rw [List.cons_append, List.cons.injEq] at goesOn
              rw [goesOn.1] at spelled
              exact absurd spelled (notBelow rest)
        · rfl

theorem expandHome_ne_empty (nonempty : a ≠ "") : expandHome a ≠ "" := by
  unfold expandHome
  split
  · decide
  · simp [home]
  · exact nonempty

theorem absolute_append (nonempty : a ≠ "") (b cwd : String) :
    absolute (a ++ "/" ++ b) cwd = absolute a cwd ++ "/" ++ b := by
  have begun : (expandHome a ++ "/" ++ b).toList.head? = (expandHome a).toList.head? := by
    rw [String.append_assoc, String.toList_append, List.head?_append_of_ne_nil]
    simpa using expandHome_ne_empty nonempty
  rw [absolute, expandHome_append nonempty, begun, absolute]
  split
  · rfl
  · simp only [String.append_assoc]

/-- A path of two parts may be resolved part by part. -/
theorem resolve_append (nonempty : a ≠ "") (relative : Relative b) (cwd : String) :
    resolve (a ++ "/" ++ b) cwd = resolve b (resolve a cwd) := by
  have whole : a ++ "/" ++ b ≠ "" := by simp [nonempty]
  have valid := valid_walkOn (absolute a cwd)
  rw [resolve_of_ne nonempty, relative.resolve (canonical_ofSegments valid),
    segments_ofSegments valid, List.reverse_reverse, resolve_of_ne whole,
    absolute_append nonempty, walkOn_append]

/--
A path as a reader expects it to be written: from the root on, with no empty piece between its
slashes, no dots and no slash at its end.
-/
structure Spelled (path : String) : Prop where
  rooted : path.toList.head? = some '/'
  noEmpty : path = "/" ∨ [] ∉ (pieces path).tail
  noDots : ['.'] ∉ pieces path ∧ ['.', '.'] ∉ pieces path
  noTrailing : path = "/" ∨ path.toList.getLast? ≠ some '/'

theorem pieces_of_head? {rest : List Char} (rooted : path.toList = '/' :: rest) :
    pieces path = [] :: rest.splitOn '/' := by
  rw [pieces, rooted, List.splitOn_cons_eq_if_modifyHead, if_pos (by simp)]

theorem not_mem_of_not_isName {text : String} (valid : Valid names)
    (unnamed : isName text = false) :
    text.toList ∉ names.map String.toList := by
  intro member
  obtain ⟨name, known, same⟩ := List.mem_map.1 member
  have named := valid name known
  rw [String.toList_inj.1 same, unnamed] at named
  cases named

/-- Canonical paths are just those that are written as expected. -/
theorem canonical_iff_spelled : Canonical path ↔ Spelled path := by
  constructor
  · intro canonical
    obtain ⟨names, valid, rfl⟩ := canonical.exists_valid
    rcases List.eq_nil_or_concat' names with rfl | ⟨front, last, rfl⟩
    · exact ⟨by decide, Or.inl rfl, by decide, Or.inl rfl⟩
    · have cut := pieces_ofSegments valid (by simp)
      have unnamed (text : String) (bad : isName text = false) :=
        not_mem_of_not_isName valid bad
      refine ⟨head?_ofSegments _, Or.inr ?_, ⟨?_, ?_⟩, Or.inr fun ends => ?_⟩
      · rw [cut]
        exact unnamed "" (by decide)
      · rw [cut, List.mem_cons, not_or]
        exact ⟨by decide, unnamed "." (by decide)⟩
      · rw [cut, List.mem_cons, not_or]
        exact ⟨by decide, unnamed ".." (by decide)⟩
      · have named : isName last = true := valid last (by simp)
        have whole : ['/'].intercalate (pieces (ofSegments (front ++ [last]))) =
            (ofSegments (front ++ [last])).toList := List.intercalate_splitOn _
        rw [← whole, cut, List.map_append, ← List.cons_append, List.map_singleton,
          Text.getLast?_intercalate_eq_separator_iff (slash_not_mem_of_isName named)] at ends
        exact ne_empty_of_isName named (String.toList_eq_nil_iff.1 ends.1)
  · rintro ⟨rooted, noEmpty, noDots, -⟩
    rcases noEmpty with rfl | noEmpty
    · have noNames : Valid [] := nofun
      exact canonical_ofSegments noNames
    · obtain ⟨rest, whole⟩ := List.head?_eq_some_iff.1 rooted
      rw [pieces_of_head? whole] at noEmpty noDots
      have more : rest.splitOn '/' ≠ [] := List.splitOn_ne_nil _ _
      refine ⟨(rest.splitOn '/').map String.ofList, fun name member => ?_, ?_⟩
      · obtain ⟨piece, known, rfl⟩ := List.mem_map.1 member
        refine isName_ofList (Text.not_mem_of_mem_splitOn known) ?_ ?_ ?_
        · rintro rfl
          exact noEmpty known
        · rintro rfl
          exact noDots.1 (List.mem_cons_of_mem _ known)
        · rintro rfl
          exact noDots.2 (List.mem_cons_of_mem _ known)
      · rw [← String.toList_inj, ofSegments, if_neg (by simp [more]), whole]
        simp [List.map_map]

end PuzzleShell.Path

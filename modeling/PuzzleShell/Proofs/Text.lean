import Mathlib.Data.List.DropRight
import Mathlib.Data.List.Infix
import PuzzleShell.Text.Blank
import PuzzleShell.Text.Lines

/-!
# Lines and blanks

The lines of two texts with a line feed between them are those of the first, now that its last line
is closed, and then those of the second.  A text is what its lines spell unless a line feed ends it,
which closes a line and separates none, or a carriage return is lost in front of a line feed.
-/

namespace PuzzleShell.Text

/-- What stands between two separators has none in it. -/
theorem not_mem_of_mem_splitOn {separator : Char} {text piece : List Char}
    (member : piece ∈ text.splitOn separator) : separator ∉ piece := by
  induction text generalizing piece with
  | nil =>
      have empty : piece = [] := by simpa using member
      simp [empty]
  | cons first rest ih =>
      rw [List.splitOn_cons_eq_if_modifyHead] at member
      split at member
      · rcases List.mem_cons.1 member with rfl | later
        · exact List.not_mem_nil
        · exact ih later
      next ordinary =>
        cases cut : rest.splitOn separator with
        | nil =>
            rw [cut] at member
            cases member
        | cons head others =>
            rw [cut] at ih member
            rcases List.mem_cons.1 member with rfl | later
            · rw [List.mem_cons, not_or]
              refine ⟨fun separates => ?_, ih List.mem_cons_self⟩
              simp [← separates] at ordinary
            · exact ih (List.mem_cons_of_mem _ later)

section Trimming

variable {text : String}

theorem trimChars_eq (cs : List Char) :
    trimChars cs = (cs.dropWhile isBlank).rdropWhile isBlank := rfl

theorem trim_trim (text : String) : trim (trim text) = trim text := by
  have kept : ((trimChars text.toList).dropWhile isBlank) = trimChars text.toList := by
    rw [List.dropWhile_eq_self_iff]
    intro nonempty blank
    have start := List.rdropWhile_prefix isBlank (text.toList.dropWhile isBlank)
    rw [← trimChars_eq] at start
    have begun := List.head?_dropWhile_not isBlank text.toList
    obtain ⟨rest, whole⟩ := start
    cases trimmed : trimChars text.toList with
    | nil => simp [trimmed] at nonempty
    | cons first more =>
        rw [← whole, trimmed] at begun
        have notBlank : isBlank first = false := begun
        simp [trimmed, notBlank] at blank
  rw [trim, trim, String.toList_ofList, trimChars_eq (trimChars _), kept, trimChars_eq,
    List.rdropWhile_idempotent]

theorem mem_of_mem_trim {char : Char} (member : char ∈ (trim text).toList) :
    char ∈ text.toList := by
  rw [trim, String.toList_ofList, trimChars_eq] at member
  have start := List.rdropWhile_prefix isBlank (text.toList.dropWhile isBlank)
  exact (List.dropWhile_suffix _).subset (start.subset member)

/-- A trimmed text does not end in a blank. -/
theorem isBlank_getLast?_trim {last : Char} (ends : (trim text).toList.getLast? = some last) :
    isBlank last = false := by
  rw [trim, String.toList_ofList, trimChars_eq] at ends
  have nonempty : (text.toList.dropWhile isBlank).rdropWhile isBlank ≠ [] := by
    intro empty
    simp [empty] at ends
  have notBlank := List.rdropWhile_last_not isBlank _ nonempty
  rw [List.getLast?_eq_getLast_of_ne_nil nonempty, Option.some.injEq] at ends
  rw [ends] at notBlank
  simpa using notBlank

/-- A text is what is left of it when it is trimmed, between blanks. -/
theorem exists_blanks_of_trim (text : String) :
    ∃ lead trail, (∀ c ∈ lead, isBlank c = true) ∧ (∀ c ∈ trail, isBlank c = true) ∧
      text.toList = lead ++ (trim text).toList ++ trail := by
  refine ⟨text.toList.takeWhile isBlank, (text.toList.dropWhile isBlank).rtakeWhile isBlank,
    fun _ => List.mem_takeWhile_imp, fun _ => List.mem_rtakeWhile_imp, ?_⟩
  rw [trim, String.toList_ofList, trimChars_eq, List.append_assoc,
    List.rdropWhile_append_rtakeWhile, List.takeWhile_append_dropWhile]

/-- Trimming a text that ends in blanks leaves the character before them at the end. -/
theorem trimChars_append_cons {c : Char} {blanks : List Char} (visible : isBlank c = false)
    (blank : ∀ other ∈ blanks, isBlank other = true) (front : List Char) :
    trimChars (front ++ c :: blanks) = (front ++ [c]).dropWhile isBlank := by
  have begun (rest : List Char) :
      (front ++ c :: rest).dropWhile isBlank = front.dropWhile isBlank ++ c :: rest := by
    rw [List.dropWhile_append]
    split
    next none =>
      rw [List.isEmpty_iff.1 none, List.dropWhile_cons_of_neg (by simp [visible])]
      rfl
    · rfl
  have ended (start : List Char) :
      (start ++ c :: blanks).rdropWhile isBlank = start ++ [c] := by
    have backwards : (start ++ c :: blanks).reverse = blanks.reverse ++ c :: start.reverse := by
      simp
    have passed : ∀ other ∈ blanks.reverse, isBlank other = true :=
      fun other member => blank other (List.mem_reverse.1 member)
    rw [List.rdropWhile, backwards, List.dropWhile_append_of_pos passed,
      List.dropWhile_cons_of_neg (by simp [visible])]
    simp
  rw [trimChars_eq, begun, ended, begun]

end Trimming

section Lines

variable {line last : List Char} {closed : List (List Char)}

theorem withoutReturn_eq_self_iff : withoutReturn line = line ↔ line.getLast? ≠ some '\r' := by
  unfold withoutReturn
  split
  next ends =>
    simp only [ends, ne_eq, not_true_eq_false, iff_false]
    rcases List.eq_nil_or_concat' line with rfl | ⟨front, final, rfl⟩
    · simp at ends
    · simp
  next ends => exact iff_of_true rfl ends

theorem prefix_withoutReturn (line : List Char) : withoutReturn line <+: line := by
  unfold withoutReturn
  split
  · exact List.dropLast_prefix line
  · exact List.prefix_rfl

theorem prefix_withoutReturn_iff {mark : List Char} (unreturned : mark.getLast? ≠ some '\r') :
    mark <+: withoutReturn line ↔ mark <+: line := by
  refine ⟨fun start => start.trans (prefix_withoutReturn line), fun start => ?_⟩
  unfold withoutReturn
  split
  next ends =>
    rcases List.eq_nil_or_concat' line with rfl | ⟨front, final, rfl⟩
    · exact start
    · rw [List.getLast?_concat, Option.some.injEq] at ends
      rw [List.dropLast_concat]
      refine (List.prefix_concat_iff.1 start).resolve_left fun whole => unreturned ?_
      rw [whole, ends, List.getLast?_concat]
  · exact start

/-- A line feed after some pieces closes the last of them. -/
theorem closedLines_append (closed : List (List Char)) {rest : List (List Char)}
    (nonempty : rest ≠ []) :
    closedLines (closed ++ rest) = closed.map withoutReturn ++ closedLines rest := by
  induction closed with
  | nil => rfl
  | cons line more ih =>
      obtain ⟨next, others, whole⟩ : ∃ next others, more ++ rest = next :: others :=
        List.exists_cons_of_ne_nil (by simp [nonempty])
      rw [List.cons_append, whole, closedLines, ← whole, ih]
      rfl

theorem lines_closed (text : String) :
    lines (text ++ "\n") =
      ((text.toList.splitOn '\n').map withoutReturn).map String.ofList := by
  have pieces : (text ++ "\n").toList.splitOn '\n' = text.toList.splitOn '\n' ++ [[]] := by
    rw [String.toList_append]
    exact List.splitOn_append_cons_self _ []
  rw [lines, pieces, closedLines_append _ (List.cons_ne_nil _ _)]
  simp [closedLines]

/-- The lines on both sides of a line feed. -/
theorem lines_append_newline_append (text rest : String) :
    lines (text ++ "\n" ++ rest) = lines (text ++ "\n") ++ lines rest := by
  have pieces : (text ++ "\n" ++ rest).toList.splitOn '\n' =
      text.toList.splitOn '\n' ++ rest.toList.splitOn '\n' := by
    rw [String.toList_append, String.toList_append, List.append_assoc]
    exact List.splitOn_append_cons_self _ _
  rw [lines_closed, lines, pieces, closedLines_append _ (List.splitOn_ne_nil _ _),
    List.map_append, lines]

/-- Every line is a piece between line feeds, but for a carriage return at its end. -/
theorem exists_piece_of_mem_lines {text line : String} (member : line ∈ lines text) :
    ∃ piece ∈ text.toList.splitOn '\n', line.toList <+: piece := by
  rw [lines, List.mem_map] at member
  obtain ⟨spelled, known, rfl⟩ := member
  rw [String.toList_ofList]
  generalize text.toList.splitOn '\n' = pieces at known
  induction pieces with
  | nil => cases known
  | cons first rest ih =>
      cases rest with
      | nil =>
          rw [closedLines] at known
          split at known
          · cases known
          · exact ⟨first, List.mem_cons_self, by simp_all⟩
      | cons next others =>
          rw [closedLines] at known
          rcases List.mem_cons.1 known with rfl | later
          · exact ⟨first, List.mem_cons_self, prefix_withoutReturn first⟩
          · obtain ⟨piece, among, start⟩ := ih later
            exact ⟨piece, List.mem_cons_of_mem _ among, start⟩

theorem newline_not_mem_of_mem_lines {text line : String} (member : line ∈ lines text) :
    '\n' ∉ line.toList := by
  obtain ⟨piece, among, start⟩ := exists_piece_of_mem_lines member
  exact fun feed => not_mem_of_mem_splitOn among (start.subset feed)

end Lines

section Spelling

variable {line last : List Char} {closed pieces others : List (List Char)}

/-- Pieces without a line feed are determined by what they spell. -/
theorem eq_of_intercalate_eq (plain : ∀ piece ∈ pieces, '\n' ∉ piece)
    (too : ∀ piece ∈ others, '\n' ∉ piece) (nonempty : pieces ≠ []) (another : others ≠ [])
    (same : ['\n'].intercalate pieces = ['\n'].intercalate others) : pieces = others := by
  rw [← List.splitOn_intercalate '\n' plain nonempty, same,
    List.splitOn_intercalate '\n' too another]

theorem getLast?_intercalate_concat (separator : Char) (closed : List (List Char))
    (last : List Char) :
    ([separator].intercalate (closed ++ [last])).getLast? =
      last.getLast?.or (if closed = [] then none else some separator) := by
  induction closed with
  | nil => simp
  | cons line rest ih =>
      rw [List.cons_append, List.intercalate_cons_of_ne_nil (by simp), List.getLast?_append, ih,
        if_neg (List.cons_ne_nil _ _), Option.or_assoc]
      congr 1
      split <;> simp

/-- A separator ends what pieces spell if the last piece is empty and not the only one. -/
theorem getLast?_intercalate_eq_separator_iff {separator : Char} (plain : separator ∉ last) :
    ([separator].intercalate (closed ++ [last])).getLast? = some separator ↔
      last = [] ∧ closed ≠ [] := by
  rw [getLast?_intercalate_concat]
  rcases List.eq_nil_or_concat' last with rfl | ⟨front, final, rfl⟩
  · simp
  · have different : final ≠ separator := fun same => plain (by simp [same])
    simp [different]

theorem return_newline_infix_append_iff (plain : '\n' ∉ line) (rest : List Char) :
    ['\r', '\n'] <:+: line ++ '\n' :: rest ↔
      line.getLast? = some '\r' ∨ ['\r', '\n'] <:+: rest := by
  induction line with
  | nil => simp [List.infix_cons_iff]
  | cons first line ih =>
      obtain ⟨notHere, later⟩ := not_or.1 (mt List.mem_cons.2 plain)
      rw [List.cons_append, List.infix_cons_iff, ih later]
      cases line with
      | nil => simp [eq_comm]
      | cons second line =>
          have notNext : '\n' ≠ second := fun same => later (same ▸ List.mem_cons_self)
          simp [notNext]

/-- A carriage return in front of a line feed is one at the end of a closed line. -/
theorem return_newline_infix_iff (plain : ∀ line ∈ closed ++ [last], '\n' ∉ line) :
    ['\r', '\n'] <:+: ['\n'].intercalate (closed ++ [last]) ↔
      ∃ line ∈ closed, line.getLast? = some '\r' := by
  induction closed with
  | nil =>
      have none : '\n' ∉ last := plain last (by simp)
      simp only [List.nil_append, List.intercalate_singleton, List.not_mem_nil, false_and,
        exists_false, iff_false]
      exact fun inside => none (inside.subset (by simp))
  | cons line rest ih =>
      obtain ⟨here, later⟩ := List.forall_mem_cons.1 plain
      rw [List.cons_append, List.intercalate_cons_of_ne_nil (by simp), List.append_assoc,
        List.singleton_append, return_newline_infix_append_iff here, ih later]
      simp

theorem toList_unlines_ofList (pieces : List (List Char)) :
    (unlines (pieces.map String.ofList)).toList = ['\n'].intercalate pieces := by
  rw [unlines, String.toList_intercalate, List.map_map]
  simp

/-- Every text is cut into pieces, of which the last one is not closed. -/
theorem exists_pieces (text : String) :
    ∃ closed last, text.toList.splitOn '\n' = closed ++ [last] ∧
      text.toList = ['\n'].intercalate (closed ++ [last]) ∧
      ∀ piece ∈ closed ++ [last], '\n' ∉ piece := by
  rcases List.eq_nil_or_concat' (text.toList.splitOn '\n') with none | ⟨closed, last, cut⟩
  · exact absurd none (List.splitOn_ne_nil _ _)
  · refine ⟨closed, last, cut, ?_, ?_⟩
    · rw [← cut, List.intercalate_splitOn]
    · rw [← cut]
      exact fun piece => not_mem_of_mem_splitOn

/-- What a piece begins with, a line begins with, but for a carriage return. -/
theorem exists_line_of_mem_splitOn {text : String} {mark piece : List Char}
    (member : piece ∈ text.toList.splitOn '\n') (start : mark <+: piece) (nonempty : mark ≠ [])
    (unreturned : mark.getLast? ≠ some '\r') : ∃ line ∈ lines text, mark <+: line.toList := by
  obtain ⟨closed, last, cut, -, -⟩ := exists_pieces text
  rw [cut, List.mem_append, List.mem_singleton] at member
  rw [lines, cut, closedLines_append _ (List.cons_ne_nil _ _)]
  rcases member with before | rfl
  · refine ⟨String.ofList (withoutReturn piece), ?_, ?_⟩
    · exact List.mem_map_of_mem (List.mem_append_left _ (List.mem_map_of_mem before))
    · rw [String.toList_ofList]
      exact (prefix_withoutReturn_iff unreturned).2 start
  · have some : piece ≠ [] := by
      rintro rfl
      exact nonempty (List.prefix_nil.1 start)
    refine ⟨String.ofList piece, ?_, by rwa [String.toList_ofList]⟩
    rw [closedLines, if_neg some]
    exact List.mem_map_of_mem (List.mem_append_right _ List.mem_cons_self)

theorem newline_not_mem_withoutReturn (plain : ∀ piece ∈ closed, '\n' ∉ piece) :
    ∀ piece ∈ closed.map withoutReturn, '\n' ∉ piece := by
  intro piece member
  obtain ⟨line, known, rfl⟩ := List.mem_map.1 member
  exact fun feed => plain line known ((prefix_withoutReturn line).subset feed)

theorem map_withoutReturn_eq_self_iff :
    closed.map withoutReturn = closed ↔ ¬ ∃ line ∈ closed, line.getLast? = some '\r' := by
  have kept := @List.map_eq_map_iff _ _ withoutReturn closed id
  rw [List.map_id] at kept
  rw [kept, not_exists]
  simp only [id, withoutReturn_eq_self_iff, not_and, ne_eq]

/-- A text is spelled by its lines unless a line feed ends it or a carriage return is lost. -/
theorem unlines_lines_eq_iff (text : String) :
    unlines (lines text) = text ↔
      ¬ ['\r', '\n'] <:+: text.toList ∧ text.toList.getLast? ≠ some '\n' := by
  obtain ⟨closed, last, cut, whole, plain⟩ := exists_pieces text
  have none : '\n' ∉ last := plain last (by simp)
  have ends : text.toList.getLast? = some '\n' ↔ last = [] ∧ closed ≠ [] := by
    rw [whole, getLast?_intercalate_eq_separator_iff none]
  have spelled : unlines (lines text) = text ↔
      ['\n'].intercalate (closed.map withoutReturn ++ closedLines [last]) =
        ['\n'].intercalate (closed ++ [last]) := by
    rw [← String.toList_inj, lines, cut, closedLines_append _ (List.cons_ne_nil _ _),
      toList_unlines_ofList, whole]
  have lined : ∀ piece ∈ closed.map withoutReturn, '\n' ∉ piece :=
    newline_not_mem_withoutReturn fun piece member => plain piece (List.mem_append_left _ member)
  rw [spelled, ne_eq, ends, whole, return_newline_infix_iff plain, ← map_withoutReturn_eq_self_iff]
  by_cases empty : last = []
  · subst empty
    rw [closedLines, if_pos rfl, List.append_nil]
    by_cases single : closed = []
    · simp [single]
    · -- The empty piece after the last line feed is no line, so one line feed is not spelled.
      refine iff_of_false (fun same => ?_) fun kept => kept.2 ⟨rfl, single⟩
      have counted := congrArg List.length
        (eq_of_intercalate_eq lined plain (by simpa using single) (by simp) same)
      simp at counted
  · rw [closedLines, if_neg empty]
    refine ⟨fun same => ⟨?_, fun both => empty both.1⟩, fun kept => by rw [kept.1]⟩
    refine List.append_cancel_right (eq_of_intercalate_eq (fun piece member => ?_) plain
      (by simp) (by simp) same)
    rcases List.mem_append.1 member with before | final
    · exact lined piece before
    · exact plain piece (List.mem_append_right _ final)

/-- The same with the last line closed: then a carriage return at its end is lost as well. -/
theorem unlines_lines_closed_eq_iff (text : String) :
    unlines (lines (text ++ "\n")) = text ↔
      ¬ ['\r', '\n'] <:+: text.toList ∧ text.toList.getLast? ≠ some '\r' := by
  obtain ⟨closed, last, cut, whole, plain⟩ := exists_pieces text
  have ends : text.toList.getLast? = some '\r' ↔ last.getLast? = some '\r' := by
    rw [whole, getLast?_intercalate_concat]
    cases last.getLast? <;> split <;> simp
  have spelled : unlines (lines (text ++ "\n")) = text ↔
      (closed ++ [last]).map withoutReturn = closed ++ [last] := by
    rw [← String.toList_inj, lines_closed, cut, toList_unlines_ofList, whole]
    refine ⟨fun same => ?_, fun same => congrArg _ same⟩
    exact eq_of_intercalate_eq (newline_not_mem_withoutReturn plain) plain (by simp) (by simp) same
  rw [spelled, map_withoutReturn_eq_self_iff, ne_eq, ends, whole, return_newline_infix_iff plain,
    ← not_or]
  simp [or_and_right, exists_or]

end Spelling

end PuzzleShell.Text

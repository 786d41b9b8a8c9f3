import PuzzleShell.Proofs.Text

/-!
# Lines that are joined on to a text

A text is continued by a line feed and another text.  The line feed closes what was the last line.
Where that one had not been closed yet and does not end in a carriage return, the lines stay what
they were; where there was none to close, an empty line comes of it; and a carriage return at the
end is taken for a part of the line feed.
-/

namespace PuzzleShell.Text

/-- A text with a last line that a line feed closes and changes nothing about. -/
def EndsOpen (text : String) : Prop :=
  ∃ last, text.toList.getLast? = some last ∧ last ≠ '\n' ∧ last ≠ '\r'

structure IsLine (text : String) : Prop where
  nonempty : text ≠ ""
  noFeed : '\n' ∉ text.toList
  noReturn : '\r' ∉ text.toList

instance (text : String) : Decidable (IsLine text) :=
  decidable_of_iff (text ≠ "" ∧ '\n' ∉ text.toList ∧ '\r' ∉ text.toList)
    ⟨fun ⟨nonempty, noFeed, noReturn⟩ => ⟨nonempty, noFeed, noReturn⟩,
      fun line => ⟨line.nonempty, line.noFeed, line.noReturn⟩⟩

/-- A text with other texts joined on to it, each after a line feed. -/
def joined (old : String) (texts : List String) : String :=
  texts.foldl (fun text next => text ++ "\n" ++ next) old

inductive Joins (old : String) (added : List String) : List String → Prop where
  /-- The line feed closes the last line. -/
  | closes (ends : EndsOpen old) : Joins old added (lines old ++ added)
  /-- There is no line that the line feed could close, so that it makes an empty one. -/
  | inserts (ends : old = "" ∨ old.toList.getLast? = some '\n') :
      Joins old added (lines old ++ "" :: added)
  /-- The line feed takes a carriage return off the line that it closes. -/
  | cuts {front : List String} {last : String} (ends : old.toList.getLast? = some '\r')
      (lined : lines old = front ++ [last ++ "\r"]) : Joins old added (front ++ last :: added)

variable {text old : String} {added texts : List String}

theorem IsLine.lines (line : IsLine text) : lines text = [text] := by
  have single : text.toList.splitOn '\n' = [text.toList] :=
    List.splitOn_eq_singleton line.noFeed
  have some : text.toList ≠ [] := fun none => line.nonempty (String.toList_eq_nil_iff.1 none)
  rw [Text.lines, single, closedLines, if_neg some]
  simp

theorem IsLine.endsOpen_append (line : IsLine text) (front : String) :
    EndsOpen (front ++ text) := by
  have some : text.toList ≠ [] := fun none => line.nonempty (String.toList_eq_nil_iff.1 none)
  have member := List.getLast_mem some
  refine ⟨text.toList.getLast some, ?_, ?_, ?_⟩
  · rw [String.toList_append, List.getLast?_append, List.getLast?_eq_some_getLast some,
      Option.some_or]
  · exact fun feed => line.noFeed (feed ▸ member)
  · exact fun ret => line.noReturn (ret ▸ member)

/-- What a line feed at the end makes of the lines of a text. -/
theorem joins_closed (text : String) : Joins text [] (lines (text ++ "\n")) := by
  obtain ⟨closed, last, cut, whole, plain⟩ := exists_pieces text
  have ends : text.toList.getLast? =
      last.getLast?.or (if closed = [] then none else some '\n') := by
    rw [whole, getLast?_intercalate_concat]
  have before : lines text =
      (closed.map withoutReturn).map String.ofList ++ (closedLines [last]).map String.ofList := by
    rw [lines, cut, closedLines_append _ (List.cons_ne_nil _ _), List.map_append]
  have after : lines (text ++ "\n") =
      (closed.map withoutReturn).map String.ofList ++ [String.ofList (withoutReturn last)] := by
    rw [lines_closed, cut, List.map_append, List.map_append]
    rfl
  rcases List.eq_nil_or_concat' last with rfl | ⟨front, final, rfl⟩
  · have inserted : lines (text ++ "\n") = lines text ++ [""] := by
      rw [after, before]
      simp [closedLines, withoutReturn]
    rw [inserted]
    refine .inserts ?_
    rw [List.getLast?_nil, Option.none_or] at ends
    split at ends
    · exact Or.inl (String.toList_eq_nil_iff.1 (List.getLast?_eq_none_iff.1 ends))
    · exact Or.inr ends
  · rw [List.getLast?_concat, Option.some_or] at ends
    rw [closedLines, if_neg (by simp)] at before
    by_cases returned : final = '\r'
    · subst returned
      rw [after, withoutReturn, if_pos List.getLast?_concat, List.dropLast_concat]
      refine .cuts ends ?_
      rw [before]
      simp
    · have kept : withoutReturn (front ++ [final]) = front ++ [final] :=
        withoutReturn_eq_self_iff.2 (by simpa using returned)
      have same : lines (text ++ "\n") = lines text ++ [] := by
        rw [after, before, kept, List.append_nil]
        rfl
      have noFeed : '\n' ∉ front ++ [final] := plain _ (by simp)
      rw [same]
      refine .closes ⟨final, ends, ?_, returned⟩
      rintro rfl
      simp at noFeed

/-- A line feed at the end keeps the lines of just those texts that end open. -/
theorem lines_closed_eq_iff : lines (old ++ "\n") = lines old ↔ EndsOpen old := by
  have joins := joins_closed old
  generalize lines (old ++ "\n") = after at joins
  cases joins with
  | closes ends => exact iff_of_true (List.append_nil _) ends
  | inserts ends =>
      refine iff_of_false (fun same => ?_) ?_
      · simp at same
      · rintro ⟨last, known, notFeed, -⟩
        rcases ends with rfl | ends
        · simp at known
        · exact notFeed (Option.some.inj (known.symm.trans ends))
  | @cuts front last ends lined =>
      refine iff_of_false (fun same => ?_) ?_
      · rw [lined, List.append_cancel_left_eq, List.singleton_inj] at same
        have longer := congrArg String.length same
        simp at longer
      · rintro ⟨other, known, -, notReturn⟩
        exact notReturn (Option.some.inj (known.symm.trans ends))

/-- The first line that is joined on decides what becomes of the old ones. -/
theorem lines_joined (some : texts ≠ []) (single : ∀ text ∈ texts, IsLine text) :
    lines (joined old texts) = lines (old ++ "\n") ++ texts := by
  induction texts generalizing old with
  | nil => exact absurd rfl some
  | cons first rest ih =>
      have line := single first List.mem_cons_self
      have added : lines (old ++ "\n" ++ first) = lines (old ++ "\n") ++ [first] := by
        rw [lines_append_newline_append, line.lines]
      rw [joined, List.foldl_cons, ← joined]
      by_cases last : rest = []
      · subst last
        exact added
      · have closed := lines_closed_eq_iff.2 (line.endsOpen_append (old ++ "\n"))
        rw [ih last fun text member => single text (List.mem_cons_of_mem _ member), closed, added,
          List.append_assoc, List.singleton_append]

theorem Joins.append {result : List String} (joins : Joins old added result)
    (more : List String) : Joins old (added ++ more) (result ++ more) := by
  cases joins with
  | closes ends =>
      rw [List.append_assoc]
      exact .closes ends
  | inserts ends =>
      rw [List.append_assoc, List.cons_append]
      exact .inserts ends
  | cuts ends lined =>
      rw [List.append_assoc, List.cons_append]
      exact .cuts ends lined

theorem joins_joined (some : texts ≠ []) (single : ∀ text ∈ texts, IsLine text) :
    Joins old texts (lines (joined old texts)) := by
  rw [lines_joined some single]
  exact (joins_closed old).append texts

/-- The lines are the old ones and then the added ones for just those texts that end open. -/
theorem lines_joined_eq_iff (some : texts ≠ []) (single : ∀ text ∈ texts, IsLine text) :
    lines (joined old texts) = lines old ++ texts ↔ EndsOpen old := by
  rw [lines_joined some single, List.append_left_inj, lines_closed_eq_iff]

end PuzzleShell.Text

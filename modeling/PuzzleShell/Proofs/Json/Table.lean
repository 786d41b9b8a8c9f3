import PuzzleShell.Proofs.Json.RoundTrip

/-!
# A written table is read again

A table of texts is written over several lines.  The reader passes over the blanks between its
tokens, so what it reads is the record of those texts, in their order.
-/

namespace PuzzleShell.Json

variable {expected : Expected} {frames : List Frame} {after : Reader} {rest : List Char}

def textFields (entries : List (String × String)) : List (String × Document) :=
  entries.map fun entry => (entry.1, .text entry.2)

theorem textFields_append (before others : List (String × String)) :
    textFields (before ++ others) = textFields before ++ textFields others :=
  List.map_append

def row (entry : String × String) : String :=
  "  " ++ quote entry.1 ++ ": " ++ quote entry.2

theorem reads_space {c : Char} (space : isSpace c = true)
    (reads : Reads ⟨.between, expected⟩ rest after) :
    Reads ⟨.between, expected⟩ (c :: rest) after :=
  .cons (if_pos space) reads

theorem toList_row (name value : String) :
    (row (name, value)).toList =
      ' ' :: ' ' :: ((quote name).toList ++ ':' :: ' ' :: (quote value).toList) := by
  simp [row]

/-- A row is read as a field with a text. -/
theorem reads_row {name : String} {fields : List (Option String × Document)} (value : String)
    (named :
      Expected.next? expected (.text (some name)) = some (.colon fields (some name) frames)) :
    Reads ⟨.between, expected⟩ (row (name, value)).toList
      ⟨.between, .separator (.text value) (.record fields (some name) :: frames)⟩ := by
  have accepts : Reader.accept? expected (.text (some name)) =
      some ⟨.between, .colon fields (some name) frames⟩ := by
    rw [Reader.accept?, named]
    rfl
  have colon : Reader.next? ⟨.between, .colon fields (some name) frames⟩ ':' =
      some ⟨.between, .value (.record fields (some name) :: frames)⟩ := rfl
  rw [toList_row]
  refine reads_space rfl (reads_space rfl ((reads_quote name accepts).append ?_))
  exact .cons colon (reads_space rfl (reads_quote value rfl))

theorem toList_rows_cons (first second : String × String) (others : List (String × String)) :
    (",\n".intercalate ((first :: second :: others).map row)).toList =
      (row first).toList ++
        ',' :: '\n' :: (",\n".intercalate ((second :: others).map row)).toList := by
  simp [String.toList_intercalate]

/-- The rows are read one after another, up to the end of the table. -/
theorem reads_rows {name value : String} {others before : List (String × String)}
    (named : ∀ name, Expected.next? expected (.text (some name)) =
      some (.colon (namedFields (textFields before)).reverse (some name) frames)) :
    Reads ⟨.between, expected⟩
      ((",\n".intercalate (((name, value) :: others).map row)).toList ++ ['\n', '\x7d'])
      ⟨.between, .separator (.record (textFields (before ++ (name, value) :: others))) frames⟩ := by
  induction others generalizing name value before expected with
  | nil =>
      have ends : Reader.next? ⟨.between, .separator (.text value)
            (.record (namedFields (textFields before)).reverse (some name) :: frames)⟩ '\x7d' =
          some ⟨.between,
            .separator (.record (textFields (before ++ [(name, value)]))) frames⟩ := by
        have record := recordOf_reverse (textFields before) name (.text value)
        rw [textFields_append]
        exact congrArg (fun record => some (Reader.mk .between (.separator record frames))) record
      have only : (",\n".intercalate ([(name, value)].map row)).toList =
          (row (name, value)).toList := by
        simp
      rw [only]
      exact (reads_row value (named name)).append (reads_space rfl (.single ends))
  | cons second others ih =>
      obtain ⟨following, other⟩ := second
      have goesOn : Reader.next? ⟨.between, .separator (.text value)
            (.record (namedFields (textFields before)).reverse (some name) :: frames)⟩ ',' =
          some ⟨.between,
            .key (namedFields (textFields (before ++ [(name, value)]))).reverse frames⟩ := by
        simp only [namedFields, textFields_append, List.map_append, List.reverse_append]
        rfl
      have further := @ih
        (.key (namedFields (textFields (before ++ [(name, value)]))).reverse frames)
        following other (before ++ [(name, value)]) fun _ => rfl
      rw [List.append_assoc, List.singleton_append] at further
      rw [toList_rows_cons, List.append_assoc]
      exact (reads_row value (named name)).append (.cons goesOn (reads_space rfl further))

/-- A written table of texts is read as the record of those texts. -/
theorem read?_prettyTexts (entries : List (String × String)) :
    read? (prettyTexts entries) = some (.record (textFields entries)) := by
  cases entries with
  | nil => rfl
  | cons entry others =>
      obtain ⟨name, value⟩ := entry
      have spelled : (prettyTexts ((name, value) :: others)).toList =
          '\x7b' :: '\n' :: ((",\n".intercalate (((name, value) :: others).map row)).toList ++
            ['\n', '\x7d']) := by
        simp [prettyTexts, row, Function.comp_def]
      have opens : Reader.next? Reader.start '\x7b' = some ⟨.between, .firstKey []⟩ := rfl
      have rows := @reads_rows (.firstKey []) [] name value others [] fun _ => rfl
      have reads : Reads Reader.start (prettyTexts ((name, value) :: others)).toList
          ⟨.between, .separator (.record (textFields ((name, value) :: others))) []⟩ := by
        rw [spelled]
        exact .cons opens (reads_space rfl rows)
      rw [Reads] at reads
      rw [read?, reads]
      rfl

end PuzzleShell.Json

import PuzzleShell.Proofs.CommandLine.Scan
import PuzzleShell.Proofs.Text

/-!
# Blanks at the ends of a line

A line is trimmed before it is split.  The blanks in front of it would be passed over anyway.  Those
at its end close its last word or stand between quotes that are never closed, and neither the words
nor the complaint depend on them, unless a backslash outside of quotes protects the first of them:
then that blank belongs to the last word, and is lost.
-/

namespace PuzzleShell.CommandLine

open Text (isBlank trim)

variable {line : String} {front text blanks : List Char} {scan : Scan}

/-- A line that ends in blanks, the first of which is protected by a backslash outside of quotes. -/
def EndsProtected (line : String) : Prop :=
  ∃ front blank rest, line.toList = front ++ '\\' :: blank :: rest ∧ placeAfter front = .bare ∧
    isBlank blank = true ∧ Blank rest

theorem Place.next_eq_escaped_iff {place : Place} {c : Char} :
    place.next c = .escaped ↔ place = .bare ∧ c = '\\' := by
  cases place <;> simp only [Place.next] <;> grind

/-- A protecting backslash is the last character, and it stands outside of quotes itself. -/
theorem placeAfter_eq_escaped_iff :
    placeAfter text = .escaped ↔ ∃ front, text = front ++ ['\\'] ∧ placeAfter front = .bare := by
  constructor
  · intro ends
    rcases List.eq_nil_or_concat' text with rfl | ⟨front, last, rfl⟩
    · cases ends
    · rw [placeAfter, List.foldl_concat, Place.next_eq_escaped_iff] at ends
      obtain ⟨bare, rfl⟩ := ends
      exact ⟨front, rfl, bare⟩
  · rintro ⟨front, rfl, bare⟩
    rw [placeAfter, List.foldl_concat, Place.next_eq_escaped_iff]
    exact ⟨bare, rfl⟩

/-- A blank neither opens nor closes quotes. -/
theorem Place.complaint?_next {c : Char} (blank : isBlank c = true) (place : Place) :
    (place.next c).complaint? = place.complaint? := by
  obtain ⟨noSingle, noDouble, noBackslash⟩ := ne_of_isBlank blank
  cases place <;> simp [Place.next, Place.complaint?, noSingle, noDouble, noBackslash]

theorem Place.complaint?_foldl_next (blank : Blank blanks) (place : Place) :
    (blanks.foldl Place.next place).complaint? = place.complaint? := by
  induction blanks generalizing place with
  | nil => rfl
  | cons c rest ih =>
      obtain ⟨first, later⟩ := List.forall_mem_cons.1 blank
      rw [List.foldl_cons, ih later, complaint?_next first]

namespace Scan

/-- Blanks at the end of a line change nothing, as long as the first one is not protected. -/
theorem finish_read_blanks (blank : Blank blanks) (unprotected : scan.place ≠ .escaped) :
    (scan.read blanks).finish = scan.finish := by
  cases ends : scan.place.complaint? with
  | some complaint =>
      have still : (scan.read blanks).place.complaint? = some complaint := by
        rw [place_read, Place.complaint?_foldl_next blank, ends]
      rw [finish_of_complaint still, finish_of_complaint ends]
  | none =>
      obtain ⟨place, word, quoted, words⟩ := scan
      cases place with
      | bare =>
          by_cases empty : blanks = []
          · rw [empty, read_nil]
          · rw [read_gap blank empty, finish_bare, finish_bare]
            rfl
      | escaped => exact absurd rfl unprotected
      | single => cases ends
      | double => cases ends
      | doubleEscaped => cases ends

/-- Blanks in front of a line are passed over. -/
theorem read_start_dropWhile (text : List Char) :
    start.read (text.dropWhile isBlank) = start.read text := by
  have blank : Blank (text.takeWhile isBlank) := fun _ => List.mem_takeWhile_imp
  conv_rhs =>
    rw [← List.takeWhile_append_dropWhile (p := isBlank) (l := text), read_append, start,
      read_blanks blank]
  rfl

/-- What has been read outside of quotes. -/
theorem exists_read_of_bare (bare : placeAfter front = .bare) :
    ∃ word quoted words, start.read front = ⟨.bare, word, quoted, words⟩ := by
  rw [← place_read_start] at bare
  exact ⟨_, _, _, by rw [← bare]⟩

end Scan

theorem placeAfter_append_of_blank (blank : Blank blanks) (text : List Char) :
    placeAfter (blanks ++ text) = placeAfter text := by
  rw [← Scan.place_read_start, Scan.read_append, Scan.start, Scan.read_blanks blank]
  exact Scan.place_read_start text

/-- No blank is lost if none is protected. -/
theorem tokenize_trim_of_not_endsProtected (unprotected : ¬ EndsProtected line) :
    tokenize (trim line) = tokenize line := by
  obtain ⟨lead, trail, led, trailed, whole⟩ := Text.exists_blanks_of_trim line
  have begun :
      Scan.start.read (lead ++ (trim line).toList) = Scan.start.read (trim line).toList := by
    rw [Scan.read_append, Scan.start, Scan.read_blanks led]
  rw [tokenize_eq, tokenize_eq, whole, Scan.read_append, begun]
  by_cases none : trail = []
  · rw [none, Scan.read_nil]
  · -- If the blanks followed a protecting backslash, the line would end protected.
    refine (Scan.finish_read_blanks trailed ?_).symm
    rw [Scan.place_read_start, Ne, placeAfter_eq_escaped_iff]
    rintro ⟨front, trimmed, bare⟩
    obtain ⟨blank, rest, rfl⟩ := List.exists_cons_of_ne_nil none
    obtain ⟨first, later⟩ := List.forall_mem_cons.1 trailed
    refine unprotected ⟨lead ++ front, blank, rest, ?_, ?_, first, later⟩
    · rw [whole, trimmed]
      simp
    · rw [placeAfter_append_of_blank led, bare]

theorem close_cons (c : Char) (word : List Char) (quoted : Bool) (words : List String) :
    close (c :: word) quoted words = (String.ofList word.reverse).push c :: words := by
  rw [close, if_neg (by simp), List.cons.injEq, ← String.toList_inj]
  simp

/-- Nothing is closed where there is no word. -/
theorem close_cases (word : List Char) (quoted : Bool) (words : List String) :
    close word quoted words = String.ofList word.reverse :: words ∨
      String.ofList word.reverse = "" ∧ close word quoted words = words := by
  unfold close
  split
  next none => exact Or.inr ⟨by rw [none.1]; rfl, rfl⟩
  · exact Or.inl rfl

/-- A protected blank is the end of the last word, and trimming takes it away. -/
theorem EndsProtected.tokenize (ends : EndsProtected line) :
    ∃ words word blank, isBlank blank = true ∧
      CommandLine.tokenize line = .ok (words ++ [word.push blank]) ∧
      (CommandLine.tokenize (trim line) = .ok (words ++ [word]) ∨
        word = "" ∧ CommandLine.tokenize (trim line) = .ok words) := by
  obtain ⟨front, blank, rest, whole, bare, first, later⟩ := ends
  obtain ⟨word, quoted, words, before⟩ := Scan.exists_read_of_bare bare
  have blanks : Blank (blank :: rest) := List.forall_mem_cons.2 ⟨first, later⟩
  have protects : Scan.start.read (front ++ ['\\']) = ⟨.escaped, word, quoted, words⟩ := by
    rw [Scan.read_append, before]
    rfl
  have kept : Scan.start.read line.toList =
      Scan.read ⟨.bare, blank :: word, quoted, words⟩ rest := by
    rw [whole, List.append_cons, Scan.read_append, protects]
    rfl
  have trimmed : CommandLine.tokenize (trim line) = .ok (close word quoted words).reverse := by
    rw [tokenize_eq, trim, String.toList_ofList, whole,
      Text.trimChars_append_cons (by decide) blanks, Scan.read_start_dropWhile, protects,
      Scan.finish_escaped]
  refine ⟨words.reverse, String.ofList word.reverse, blank, first, ?_, ?_⟩
  · rw [tokenize_eq, kept, Scan.finish_read_blanks later (by simp), Scan.finish_bare, close_cons,
      List.reverse_cons]
  · rw [trimmed]
    rcases close_cases word quoted words with closed | ⟨empty, closed⟩
    · exact Or.inl (by rw [closed, List.reverse_cons])
    · exact Or.inr ⟨empty, by rw [closed]⟩

/-- The words of a line that ends in a protected blank are not those of the trimmed line. -/
theorem EndsProtected.tokenize_trim_ne (ends : EndsProtected line) :
    CommandLine.tokenize (trim line) ≠ CommandLine.tokenize line := by
  obtain ⟨words, word, blank, -, kept, trimmed | ⟨-, trimmed⟩⟩ := ends.tokenize
  · rw [kept, trimmed, Ne, Except.ok.injEq, List.append_cancel_left_eq, List.cons.injEq]
    rintro ⟨same, -⟩
    have longer := congrArg String.length same
    simp at longer
  · rw [kept, trimmed]
    simp

/--
Trimming a line changes its words just if it ends in blanks of which the first one is protected.
Then its last word ends in this blank, which is lost, and with it the word if it was nothing else.
Whether the line can be split, and what is wrong if it cannot, never changes.
-/
theorem tokenize_trim_eq_iff (line : String) :
    (tokenize (trim line) = tokenize line ↔ ¬ EndsProtected line) ∧
      (EndsProtected line → ∃ words word blank, isBlank blank = true ∧
        tokenize line = .ok (words ++ [word.push blank]) ∧
        (tokenize (trim line) = .ok (words ++ [word]) ∨
          word = "" ∧ tokenize (trim line) = .ok words)) ∧
      ∀ complaint, tokenize (trim line) = .error complaint ↔ tokenize line = .error complaint := by
  by_cases ends : EndsProtected line
  · refine ⟨iff_of_false ends.tokenize_trim_ne (not_not_intro ends), fun _ => ends.tokenize, ?_⟩
    obtain ⟨words, word, blank, -, kept, trimmed | ⟨-, trimmed⟩⟩ := ends.tokenize <;>
      simp [kept, trimmed]
  · have same := tokenize_trim_of_not_endsProtected ends
    exact ⟨iff_of_true same ends, fun protects => absurd protects ends, fun _ => by rw [same]⟩

/-- A quoted blank stays where it is, and a protected one is lost with the word that it is. -/
theorem tokenize_trim_eq_iff_lastBlank :
    EndsProtected "cat \\ \t" ∧ tokenize "cat \\ \t" = .ok ["cat", " "] ∧
      tokenize (trim "cat \\ \t") ≠ tokenize "cat \\ \t" ∧
      ¬ EndsProtected " cat 'a\\ ' " ∧
      tokenize (trim " cat 'a\\ ' ") = tokenize " cat 'a\\ ' " := by
  have ends : EndsProtected "cat \\ \t" :=
    ⟨"cat ".toList, ' ', ['\t'], by decide, by decide, by decide, by decide⟩
  have unprotected : ¬ EndsProtected " cat 'a\\ ' " :=
    (tokenize_trim_eq_iff _).1.1 (by decide)
  exact ⟨ends, by decide, fun same => (tokenize_trim_eq_iff _).1.1 same ends, unprotected,
    (tokenize_trim_eq_iff _).1.2 unprotected⟩

/-- Not every line keeps its words when it is trimmed: here the name of a file ends in a blank. -/
theorem not_tokenize_trim_eq : ¬ ∀ line, tokenize (trim line) = tokenize line := by
  intro same
  have lost : tokenize (trim "cat a\\ ") = .ok ["cat", "a"] := by decide
  have kept : tokenize "cat a\\ " = .ok ["cat", "a "] := by decide
  rw [same, kept] at lost
  simp at lost

end PuzzleShell.CommandLine

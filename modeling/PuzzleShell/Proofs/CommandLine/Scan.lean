import PuzzleShell.CommandLine

/-!
# Reading a line character by character

A line is read by a machine that takes one character at a time.  Where a character stands, inside
or outside of quotes and maybe after a backslash, depends on the characters before it alone, and
decides what becomes of it.  So a line of two parts is read by reading the one and then the other.
-/

namespace PuzzleShell.CommandLine

inductive Place where
  /-- Outside of quotes. -/
  | bare
  /-- Right after a backslash outside of quotes. -/
  | escaped
  | single
  | double
  /-- Right after a backslash between double quotes. -/
  | doubleEscaped
  deriving DecidableEq, Repr

def Place.next : Place → Char → Place
  | .bare, c =>
      if c = '\'' then .single
      else if c = '"' then .double
      else if c = '\\' then .escaped
      else .bare
  | .escaped, _ => .bare
  | .single, c => if c = '\'' then .bare else .single
  | .double, c => if c = '"' then .bare else if c = '\\' then .doubleEscaped else .double
  | .doubleEscaped, _ => .double

def Place.complaint? : Place → Option Complaint
  | .bare | .escaped => none
  | .single => some .unterminatedSingleQuote
  | .double | .doubleEscaped => some .unterminatedDoubleQuote

def placeAfter (text : List Char) : Place :=
  text.foldl Place.next .bare

/-- Where the rest of a line stands that `wordsFrom` is given. -/
def Quotes.place : Quotes → Place
  | .none => .bare
  | .single => .single
  | .double => .double

/-- What has been read of a line.  The last character of the word under way comes first, and so does
the last of the closed words. -/
structure Scan where
  place : Place
  word : List Char
  /-- Whether quotes were opened in the word under way. -/
  quoted : Bool
  words : List String

namespace Scan

def start : Scan :=
  ⟨.bare, [], false, []⟩

def next : Scan → Char → Scan
  | ⟨.bare, word, quoted, words⟩, c =>
      if c = '\'' then ⟨.single, word, true, words⟩
      else if c = '"' then ⟨.double, word, true, words⟩
      else if c = '\\' then ⟨.escaped, word, quoted, words⟩
      else if Text.isBlank c then ⟨.bare, [], false, close word quoted words⟩
      else ⟨.bare, c :: word, quoted, words⟩
  | ⟨.escaped, word, quoted, words⟩, c => ⟨.bare, c :: word, quoted, words⟩
  | ⟨.single, word, quoted, words⟩, c =>
      if c = '\'' then ⟨.bare, word, quoted, words⟩ else ⟨.single, c :: word, quoted, words⟩
  | ⟨.double, word, quoted, words⟩, c =>
      if c = '"' then ⟨.bare, word, quoted, words⟩
      else if c = '\\' then ⟨.doubleEscaped, word, quoted, words⟩
      else ⟨.double, c :: word, quoted, words⟩
  | ⟨.doubleEscaped, word, quoted, words⟩, c =>
      if c = '"' ∨ c = '\\' then ⟨.double, c :: word, quoted, words⟩
      else ⟨.double, c :: '\\' :: word, quoted, words⟩

def read (scan : Scan) (text : List Char) : Scan :=
  text.foldl next scan

def finish (scan : Scan) : Except Complaint (List String) :=
  match scan.place.complaint? with
  | some complaint => .error complaint
  | none => .ok (close scan.word scan.quoted scan.words).reverse

theorem finish_of_complaint {scan : Scan} {complaint : Complaint}
    (wrong : scan.place.complaint? = some complaint) : scan.finish = .error complaint := by
  rw [finish, wrong]

theorem finish_bare (word : List Char) (quoted : Bool) (words : List String) :
    finish ⟨.bare, word, quoted, words⟩ = .ok (close word quoted words).reverse := rfl

theorem finish_escaped (word : List Char) (quoted : Bool) (words : List String) :
    finish ⟨.escaped, word, quoted, words⟩ = .ok (close word quoted words).reverse := rfl

theorem read_nil (scan : Scan) : scan.read [] = scan := rfl

theorem read_append (scan : Scan) (text rest : List Char) :
    scan.read (text ++ rest) = (scan.read text).read rest :=
  List.foldl_append

theorem place_next (scan : Scan) (c : Char) : (scan.next c).place = scan.place.next c := by
  obtain ⟨place, word, quoted, words⟩ := scan
  cases place <;> simp only [next, Place.next] <;> (repeat' split) <;> rfl

theorem place_read (scan : Scan) (text : List Char) :
    (scan.read text).place = text.foldl Place.next scan.place := by
  induction text generalizing scan with
  | nil => rfl
  | cons c rest ih =>
      have goesOn := ih (scan.next c)
      rw [place_next] at goesOn
      exact goesOn

theorem place_read_start (text : List Char) : (start.read text).place = placeAfter text :=
  place_read start text

end Scan

section Blanks

variable {blanks word : List Char} {quoted : Bool} {words : List String}

/-- A run of blanks, maybe an empty one. -/
def Blank (text : List Char) : Prop :=
  ∀ c ∈ text, Text.isBlank c = true

instance (text : List Char) : Decidable (Blank text) :=
  decidable_of_iff (text.all Text.isBlank = true) List.all_eq_true

/-- Blanks are neither quotes nor backslashes. -/
theorem ne_of_isBlank {c : Char} (blank : Text.isBlank c = true) :
    c ≠ '\'' ∧ c ≠ '"' ∧ c ≠ '\\' := by
  refine ⟨?_, ?_, ?_⟩ <;> rintro rfl <;> exact absurd blank (by decide)

namespace Scan

theorem next_bare_of_isBlank {c : Char} (blank : Text.isBlank c = true) (word : List Char)
    (quoted : Bool) (words : List String) :
    next ⟨.bare, word, quoted, words⟩ c = ⟨.bare, [], false, close word quoted words⟩ := by
  obtain ⟨noSingle, noDouble, noBackslash⟩ := ne_of_isBlank blank
  rw [next, if_neg noSingle, if_neg noDouble, if_neg noBackslash, if_pos blank]

/-- Blanks between words are passed over. -/
theorem read_blanks (blank : Blank blanks) (words : List String) :
    read ⟨.bare, [], false, words⟩ blanks = ⟨.bare, [], false, words⟩ := by
  induction blanks with
  | nil => rfl
  | cons c rest ih =>
      obtain ⟨first, later⟩ := List.forall_mem_cons.1 blank
      have passed : close [] false words = words := rfl
      rw [read, List.foldl_cons, next_bare_of_isBlank first, passed]
      exact ih later

/-- Blanks after a word close it. -/
theorem read_gap (blank : Blank blanks) (some : blanks ≠ []) (word : List Char) (quoted : Bool)
    (words : List String) :
    read ⟨.bare, word, quoted, words⟩ blanks = ⟨.bare, [], false, close word quoted words⟩ := by
  cases blanks with
  | nil => exact absurd rfl some
  | cons c rest =>
      obtain ⟨first, later⟩ := List.forall_mem_cons.1 blank
      rw [read, List.foldl_cons, next_bare_of_isBlank first]
      exact read_blanks later _

end Scan

end Blanks

/-- A backslash between double quotes is kept with the character after it, unless it protects it. -/
theorem Scan.finish_read_doubleEscaped {word rest : List Char} {quoted : Bool} {words : List String}
    (noQuote : ∀ more, rest ≠ '"' :: more) (noBackslash : ∀ more, rest ≠ '\\' :: more) :
    (Scan.read ⟨.doubleEscaped, word, quoted, words⟩ rest).finish =
      (Scan.read ⟨.double, '\\' :: word, quoted, words⟩ rest).finish := by
  cases rest with
  | nil => rfl
  | cons c rest =>
      have quote : c ≠ '"' := fun same => noQuote rest (by rw [same])
      have backslash : c ≠ '\\' := fun same => noBackslash rest (by rw [same])
      simp only [read, List.foldl_cons, next, quote, backslash, or_self, if_false]

/-- The word under way comes after the words that were closed before it. -/
theorem reverse_close_append (word : List Char) (quoted : Bool) (words others : List String) :
    (close word quoted words).reverse ++ others = words.reverse ++ close word quoted others := by
  unfold close
  split <;> simp

/-- The words of the rest of a line are those that the machine finds in it. -/
theorem finish_read (quotes : Quotes) (word : List Char) (quoted : Bool) (words : List String)
    (text : List Char) :
    (Scan.read ⟨quotes.place, word, quoted, words⟩ text).finish =
      (wordsFrom quotes word quoted text).map (words.reverse ++ ·) := by
  have last (word : List Char) (quoted : Bool) (words : List String) :
      (close word quoted words).reverse = words.reverse ++ close word quoted [] := by
    rw [← reverse_close_append, List.append_nil]
  fun_induction wordsFrom quotes word quoted text generalizing words with
  | case1 => rfl
  | case2 word quoted rest ih => exact ih words
  | case3 word quoted c rest ordinary ih =>
      rw [← ih words, Scan.read, List.foldl_cons, Quotes.place, Scan.next, if_neg ordinary]
      rfl
  | case4 => rfl
  | case5 word quoted rest ih => exact ih words
  | case6 word quoted rest ih => exact ih words
  | case7 word quoted rest ih => exact ih words
  | case8 word quoted c rest noQuote protectsQuote protectsBackslash ih =>
      rw [← ih words, Scan.read, List.foldl_cons, Quotes.place, Scan.next, if_neg noQuote]
      split
      -- A backslash that protects nothing: the machine keeps it only with the next character.
      next backslash =>
        subst backslash
        exact Scan.finish_read_doubleEscaped (fun more => protectsQuote more rfl)
          fun more => protectsBackslash more rfl
      · rfl
  | case9 word quoted => exact congrArg Except.ok (last word quoted words)
  | case10 word quoted rest ih => exact ih words
  | case11 word quoted rest ih => exact ih words
  | case12 word quoted => exact congrArg Except.ok (last word quoted words)
  | case13 word quoted c rest ih => exact ih words
  | case14 word quoted c rest noSingle noDouble alone protects blank ih =>
      -- The word under way is closed by the machine now, and by `wordsFrom` once the rest is read.
      have closed := ih (close word quoted words)
      rw [Scan.read, List.foldl_cons, Quotes.place, Scan.next_bare_of_isBlank blank]
      refine closed.trans ?_
      cases wordsFrom .none [] false rest with
      | error complaint => rfl
      | ok others => exact congrArg Except.ok (reverse_close_append word quoted words others)
  | case15 word quoted c rest noSingle noDouble alone protects ordinary ih =>
      have backslash : c ≠ '\\' := by
        rintro rfl
        cases rest with
        | nil => exact alone rfl rfl
        | cons next rest => exact protects next rest rfl rfl
      rw [← ih words, Scan.read, List.foldl_cons, Quotes.place, Scan.next, if_neg noSingle,
        if_neg noDouble, if_neg backslash, if_neg ordinary]
      rfl

/-- A line is split into the words that the machine finds in it. -/
theorem tokenize_eq (line : String) : tokenize line = (Scan.start.read line.toList).finish := by
  have whole := finish_read .none [] false [] line.toList
  simp only [List.reverse_nil, List.nil_append] at whole
  rw [tokenize, Scan.start]
  refine Eq.trans ?_ whole.symm
  cases wordsFrom .none [] false line.toList <;> rfl

end PuzzleShell.CommandLine

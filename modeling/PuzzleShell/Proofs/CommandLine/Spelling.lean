import PuzzleShell.Proofs.CommandLine.Scan

/-!
# Typing words

A word can be typed between quotes of either kind, or with a backslash in front of every character.
Each style protects just the characters that mean something where it puts them, so reading the line
gives the words back, whatever they hold and however the styles are mixed.
-/

namespace PuzzleShell.CommandLine

inductive Style where
  /-- Between single quotes, of which none is left standing in the word. -/
  | single
  /-- Between double quotes, with a backslash before every double quote and backslash. -/
  | double
  /-- Without quotes, with a backslash before every character. -/
  | backslashed
  deriving DecidableEq, Repr

namespace Style

def spellChar : Style → Char → List Char
  | .single, c => if c = '\'' then ['\'', '\\', '\'', '\''] else [c]
  | .double, c => if c = '\\' ∨ c = '"' then ['\\', c] else [c]
  | .backslashed, c => ['\\', c]

def mark : Style → List Char
  | .single => ['\'']
  | .double => ['"']
  | .backslashed => []

def spell (style : Style) (word : String) : List Char :=
  style.mark ++ word.toList.flatMap style.spellChar ++ style.mark

/-- Whether a word can be typed so: without quotes, nothing is to be seen of an empty one. -/
def Suits (style : Style) (word : String) : Prop :=
  style = .backslashed → word ≠ ""

instance (style : Style) (word : String) : Decidable (style.Suits word) :=
  inferInstanceAs (Decidable (style = .backslashed → word ≠ ""))

def place : Style → Place
  | .single => .single
  | .double => .double
  | .backslashed => .bare

def quotes : Style → Bool
  | .single | .double => true
  | .backslashed => false

variable {style : Style} {text : String} {word : List Char} {words : List String}

/-- Reading what is typed for a character adds this character to the word under way. -/
theorem read_spellChar (style : Style) (c : Char) (word : List Char) (words : List String) :
    Scan.read ⟨style.place, word, style.quotes, words⟩ (style.spellChar c) =
      ⟨style.place, c :: word, style.quotes, words⟩ := by
  cases style with
  | single =>
      by_cases quote : c = '\''
      · subst quote
        rfl
      · simp [spellChar, Scan.read, Scan.next, place, quote]
  | double =>
      by_cases special : c = '\\' ∨ c = '"'
      · rcases special with rfl | rfl <;> rfl
      · obtain ⟨noBackslash, noQuote⟩ := not_or.1 special
        simp [spellChar, Scan.read, Scan.next, place, noBackslash, noQuote]
  | backslashed => rfl

theorem read_flatMap_spellChar (style : Style) (chars word : List Char) (words : List String) :
    Scan.read ⟨style.place, word, style.quotes, words⟩ (chars.flatMap style.spellChar) =
      ⟨style.place, chars.reverse ++ word, style.quotes, words⟩ := by
  induction chars generalizing word with
  | nil => rfl
  | cons c rest ih =>
      rw [List.flatMap_cons, Scan.read_append, read_spellChar, ih, List.reverse_cons,
        List.append_assoc, List.singleton_append]

/-- Reading a typed word leaves this word under way. -/
theorem read_spell (style : Style) (text : String) (words : List String) :
    Scan.read ⟨.bare, [], false, words⟩ (style.spell text) =
      ⟨.bare, text.toList.reverse, style.quotes, words⟩ := by
  have opened : Scan.read ⟨.bare, [], false, words⟩ style.mark =
      ⟨style.place, [], style.quotes, words⟩ := by
    cases style <;> rfl
  have closed (word : List Char) : Scan.read ⟨style.place, word, style.quotes, words⟩ style.mark =
      ⟨.bare, word, style.quotes, words⟩ := by
    cases style <;> rfl
  rw [spell, Scan.read_append, Scan.read_append, opened, read_flatMap_spellChar, closed,
    List.append_nil]

/-- A word that the style suits is there once it is closed, even if it is empty. -/
theorem Suits.close (suits : style.Suits text) (words : List String) :
    close text.toList.reverse style.quotes words = text :: words := by
  rw [CommandLine.close, if_neg, List.reverse_reverse, String.ofList_toList]
  rintro ⟨empty, unquoted⟩
  cases style with
  | single => cases unquoted
  | double => cases unquoted
  | backslashed => exact suits rfl (by simpa using empty)

end Style

structure Typed where
  style : Style
  word : String
  gap : List Char

def Typed.chars (typed : Typed) : List Char :=
  typed.style.spell typed.word ++ typed.gap

def lineOf (lead : List Char) (typed : List Typed) : String :=
  String.ofList (lead ++ typed.flatMap Typed.chars)

/-- A word that its style suits, with only blanks after it. -/
structure Typed.Proper (typed : Typed) : Prop where
  suits : typed.style.Suits typed.word
  blank : Blank typed.gap

/-- Where all words but the last have blanks after them, the words are found one after another. -/
theorem finish_read_typed {typed : List Typed} (proper : ∀ entry ∈ typed, entry.Proper)
    (apart : ∀ entry ∈ typed.dropLast, entry.gap ≠ []) (words : List String) :
    (Scan.read ⟨.bare, [], false, words⟩ (typed.flatMap Typed.chars)).finish =
      .ok (words.reverse ++ typed.map Typed.word) := by
  induction typed generalizing words with
  | nil => simp [Scan.read, Scan.finish_bare, close]
  | cons first rest ih =>
      obtain ⟨here, later⟩ := List.forall_mem_cons.1 proper
      have goesOn (gap : first.gap ≠ []) :
          Scan.read ⟨.bare, [], false, words⟩ first.chars =
            ⟨.bare, [], false, first.word :: words⟩ := by
        rw [Typed.chars, Scan.read_append, Style.read_spell, Scan.read_gap here.blank gap,
          here.suits.close]
      cases rest with
      | nil =>
          rw [List.flatMap_cons, List.flatMap_nil, List.append_nil]
          by_cases ends : first.gap = []
          · rw [Typed.chars, ends, List.append_nil, Style.read_spell, Scan.finish_bare,
              here.suits.close]
            simp
          · rw [goesOn ends]
            simp [Scan.finish_bare, close]
      | cons second rest =>
          rw [List.dropLast_cons_cons] at apart
          obtain ⟨gap, others⟩ := List.forall_mem_cons.1 apart
          rw [List.flatMap_cons, Scan.read_append, goesOn gap, ih later others]
          simp

/--
Every list of words can be typed.  Each word may be typed in its own style, as long as an empty one
has quotes, and any blanks may separate and surround the words: reading the line gives the list.
-/
theorem tokenize_lineOf {lead : List Char} {typed : List Typed} (led : Blank lead)
    (proper : ∀ entry ∈ typed, entry.Proper) (apart : ∀ entry ∈ typed.dropLast, entry.gap ≠ []) :
    tokenize (lineOf lead typed) = .ok (typed.map Typed.word) := by
  rw [tokenize_eq, lineOf, String.toList_ofList, Scan.read_append, Scan.start,
    Scan.read_blanks led, finish_read_typed proper apart]
  rfl

/-- An empty word between one with a quote and one of blanks, quotes and backslashes. -/
theorem tokenize_lineOf_oddWords :
    let typed : List Typed :=
      [⟨.single, "it's", [' ']⟩, ⟨.double, "", ['\t', ' ']⟩, ⟨.double, "'\"\\ ", ['\n']⟩,
        ⟨.backslashed, "a \\", [' ']⟩]
    Blank [' ', '\t'] ∧ (∀ entry ∈ typed, entry.Proper) ∧
      (∀ entry ∈ typed.dropLast, entry.gap ≠ []) ∧
      lineOf [' ', '\t'] typed = " \t'it'\\''s' \"\"\t \"'\\\"\\\\ \"\n\\a\\ \\\\ " ∧
      tokenize (lineOf [' ', '\t'] typed) = .ok ["it's", "", "'\"\\ ", "a \\"] := by
  intro typed
  have led : Blank [' ', '\t'] := by decide
  have proper : ∀ entry ∈ typed, entry.Proper := by
    simp only [typed, List.forall_mem_cons]
    exact ⟨⟨by decide, by decide⟩, ⟨by decide, by decide⟩, ⟨by decide, by decide⟩,
      ⟨by decide, by decide⟩, by simp⟩
  have apart : ∀ entry ∈ typed.dropLast, entry.gap ≠ [] := by
    simp [typed]
  exact ⟨led, proper, apart, by decide, tokenize_lineOf led proper apart⟩

end PuzzleShell.CommandLine

import PuzzleShell.Content.Inquiry
import PuzzleShell.Text.Base64

/-!
# What a file holds

Only the seeded world holds references to protected texts.  Whatever a player writes is stored as
plain text, however it is spelled.
-/

namespace PuzzleShell

inductive Content where
  /-- Plain text. -/
  | inline (text : String)
  /-- The protected text with this identifier. -/
  | secure (id : String)
  /-- The base64 form of the protected text with this identifier. -/
  | encoded (id : String)
  /-- Packed files under their names, in order. -/
  | archive (entries : List (String × Content))
  deriving Inhabited

namespace Archive

def magic : String := "PK-ARCHIVE"

def headerMark : String := "--- "

end Archive

namespace Content

mutual

/-- The text as a reader sees it.  Every reference to a protected text is asked for once. -/
def render (oracle : ContentOracle) : Content → Inquiry String
  | .inline text => pure text
  | .secure id => .ask oracle id
  | .encoded id => do
      let text ← .ask oracle id
      return Text.Base64.encode text
  | .archive entries => do
      let body ← renderEntries oracle entries
      return Archive.magic ++ body

def renderEntries (oracle : ContentOracle) : List (String × Content) → Inquiry String
  | [] => pure ""
  | (name, content) :: rest => do
      let body ← render oracle content
      let others ← renderEntries oracle rest
      return "\n" ++ Archive.headerMark ++ name ++ "\n" ++ body ++ others

end

mutual

/-- The identifiers that a content refers to, from left to right. -/
def references : Content → List String
  | .inline _ => []
  | .secure id | .encoded id => [id]
  | .archive entries => entryReferences entries

def entryReferences : List (String × Content) → List String
  | [] => []
  | (_, content) :: rest => references content ++ entryReferences rest

end

mutual

def same : Content → Content → Bool
  | .inline text, .inline other => text = other
  | .secure id, .secure other => id = other
  | .encoded id, .encoded other => id = other
  | .archive entries, .archive others => sameEntries entries others
  | _, _ => false

def sameEntries : List (String × Content) → List (String × Content) → Bool
  | [], [] => true
  | (name, content) :: rest, (other, found) :: others =>
      name = other && same content found && sameEntries rest others
  | _, _ => false

end

mutual

theorem same_iff : ∀ {content other : Content}, same content other = true ↔ content = other
  | .inline _, other => by cases other <;> simp [same]
  | .secure _, other => by cases other <;> simp [same]
  | .encoded _, other => by cases other <;> simp [same]
  | .archive entries, other => by
      cases other with
      | archive others => simp only [same, archive.injEq]; exact sameEntries_iff
      | _ => simp [same]

theorem sameEntries_iff : ∀ {entries others : List (String × Content)},
    sameEntries entries others = true ↔ entries = others
  | [], others => by cases others <;> simp [sameEntries]
  | (name, content) :: rest, others => by
      cases others with
      | nil => simp [sameEntries]
      | cons entry others =>
          have contents : same content entry.2 = true ↔ content = entry.2 := same_iff
          have rests : sameEntries rest others = true ↔ rest = others := sameEntries_iff
          simp [sameEntries, contents, rests, Prod.ext_iff, and_assoc]

end

instance : DecidableEq Content := fun _ _ => decidable_of_iff _ same_iff

end Content

end PuzzleShell

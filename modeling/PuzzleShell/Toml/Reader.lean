import PuzzleShell.Toml.Number
import PuzzleShell.Toml.Table

/-!
# Reading a configuration text

A text is a sequence of lines: key-value pairs, headers of tables and of arrays of tables, comments
and blank lines.  Lists and inline tables may be nested a limited number of times.
-/

namespace PuzzleShell.Toml

def nestingLimit : Nat := 79

def keyLimit : Nat := 79

def isKeyChar (c : Char) : Bool :=
  c.isAlphanum || c = '_' || c = '-'

def keyPart? (cs : List Char) : Option (String × List Char) :=
  match cs with
  | [] => none
  | c :: _ =>
      if c = '"' ∨ c = '\'' then lineText? cs
      else
        let name := cs.takeWhile isKeyChar
        if name.isEmpty then none else some (String.ofList name, cs.dropWhile isKeyChar)

/-- The parts of a dotted key, the last one first; `fuel` of the text's length is enough. -/
def keyParts? : Nat → List String → List Char → Option (List String × List Char)
  | 0, _, _ => none
  | fuel + 1, found, cs => do
      let (part, rest) ← keyPart? (skipSpace cs)
      match skipSpace rest with
      | '.' :: others => keyParts? fuel (part :: found) others
      | others => some (part :: found, others)

def key? (cs : List Char) : Option ((List String × String) × List Char) := do
  let (parts, rest) ← keyParts? (cs.length + 1) [] cs
  match parts with
  | last :: before => if parts.length ≤ keyLimit then some ((before.reverse, last), rest) else none
  | [] => none

/-- The items of a list after its opening bracket; `fuel` of the text's length is enough. -/
def items? (item : Scanner Document) : Nat → List Document → Scanner (List Document)
  | 0, _, _ => none
  | fuel + 1, found, cs =>
      match skipFiller cs with
      | ']' :: rest => some (found.reverse, rest)
      | begun => do
          let (value, rest) ← item begun
          match skipFiller rest with
          | ',' :: others => items? item fuel (value :: found) others
          | ']' :: others => some ((value :: found).reverse, others)
          | _ => none

/-- The pairs of an inline table, of which there is at least one. -/
def pairs? (item : Scanner Document) : Nat → Table → Scanner Table
  | 0, _, _ => none
  | fuel + 1, table, cs => do
      let ((path, key), rest) ← key? cs
      let (value, rest) ← (expect? '=' rest) >>= fun after => item (skipSpace after)
      let extended ← table.enter? path key value
      match skipSpace rest with
      | ',' :: others => pairs? item fuel extended others
      | '}' :: others => some (extended, others)
      | _ => none

def inlineTable? (item : Scanner Document) (cs : List Char) : Option (Document × List Char) :=
  match skipSpace cs with
  | '}' :: rest => some (.record [], rest)
  | begun => do
      let (table, rest) ← pairs? item (begun.length + 1) (.defined []) begun
      some (table.toEntry.toDocument, rest)

def scalar? (cs : List Char) : Option (Document × List Char) :=
  match cs with
  | [] => none
  | c :: _ =>
      if c = '"' ∨ c = '\'' then (text? cs).map fun found => (.text found.1, found.2)
      else if c = 't' then (expectAll? "true".toList cs).map (.boolean true, ·)
      else if c = 'f' then (expectAll? "false".toList cs).map (.boolean false, ·)
      else number? cs

/-- A value with at most the given number of lists and inline tables around each other. -/
def value? (nesting : Nat) (cs : List Char) : Option (Document × List Char) :=
  match nesting, cs with
  | inner + 1, '[' :: rest =>
      (items? (value? inner) (rest.length + 1) [] rest).map fun found => (.list found.1, found.2)
  | inner + 1, '{' :: rest => inlineTable? (value? inner) rest
  | _, _ => scalar? cs

structure Header where
  path : List String
  key : String
  isArray : Bool

structure Draft where
  /-- Everything but the table that is being filled. -/
  root : Table
  /-- The header of the table that is being filled; there is none before the first header. -/
  header : Option Header
  /-- The table that is being filled. -/
  current : Table

namespace Draft

def start : Draft := ⟨.defined [], none, .defined []⟩

def finish? (draft : Draft) : Option Table :=
  match draft.header with
  | none => some draft.current
  | some header =>
      Table.changeAt? false
        (if header.isArray then Table.append? header.key draft.current
         else Table.close? header.key draft.current)
        header.path draft.root

def open? (draft : Draft) (header : Header) : Option Draft := do
  let finished ← draft.finish?
  if header.isArray then some ⟨finished, some header, .defined []⟩
  else do
    let root ← Table.changeAt? false some header.path finished
    let parent ← Table.at? header.path root
    let table ← Table.opened? header.key parent
    some ⟨root, some header, table⟩

def enter? (draft : Draft) (path : List String) (key : String) (value : Document) :
    Option Draft := do
  some { draft with current := ← draft.current.enter? path key value }

end Draft

def header? (isArray : Bool) (cs : List Char) : Option (Header × List Char) := do
  let ((path, key), rest) ← key? cs
  let rest ← expectAll? (if isArray then "]]" else "]").toList rest
  some (⟨path, key, isArray⟩, rest)

def lines? : Nat → Draft → List Char → Option Draft
  | 0, _, _ => none
  | fuel + 1, draft, cs =>
      match skipSpace cs with
      | [] => some draft
      | '[' :: '[' :: rest => do
          let (header, rest) ← header? true rest
          let opened ← draft.open? header
          let rest ← closeLine? rest
          lines? fuel opened rest
      | '[' :: rest => do
          let (header, rest) ← header? false rest
          let opened ← draft.open? header
          let rest ← closeLine? rest
          lines? fuel opened rest
      | '\n' :: rest => lines? fuel draft rest
      | '\r' :: rest => do
          let rest ← lineEnd? ('\r' :: rest)
          lines? fuel draft rest
      | '#' :: rest => do
          let rest ← closeLine? ('#' :: rest)
          lines? fuel draft rest
      | begun => do
          let ((path, key), rest) ← key? begun
          let (value, rest) ← (expect? '=' rest) >>= fun after =>
            value? nestingLimit (skipSpace after)
          let extended ← draft.enter? path key value
          let rest ← closeLine? rest
          lines? fuel extended rest

def withoutByteOrderMark (cs : List Char) : List Char :=
  match cs with
  | c :: rest => if c = Char.ofNat 0xFEFF then rest else cs
  | [] => []

def read? (text : String) : Option Document := do
  let cs := withoutByteOrderMark text.toList
  let draft ← lines? (cs.length + 1) .start cs
  let table ← draft.finish?
  some table.toEntry.toDocument

end PuzzleShell.Toml

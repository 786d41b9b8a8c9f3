import PuzzleShell.Document
import PuzzleShell.Roster

/-!
# Tables of a configuration text

While a text is read, a table remembers how it came to be, because that decides whether the text
may still add to it.  A table named only on the way to another one is implicit: a header may
define it later.  A table made by a dotted key takes further dotted keys and nothing else.
-/

namespace PuzzleShell.Toml

inductive Entry where
  /-- A value that is complete. -/
  | closed (value : Document)
  /-- A table that was named, as a step of a path or by dotted keys. -/
  | table (implicit dotted : Bool) (entries : List (String × Entry))
  /-- The tables of an array of tables, the newest first. -/
  | tables (elements : List (List (String × Entry)))

structure Table where
  implicit : Bool
  dotted : Bool
  entries : Roster Entry

namespace Table

def defined (entries : Roster Entry) : Table := ⟨false, false, entries⟩

def toEntry (table : Table) : Entry :=
  .table table.implicit table.dotted table.entries

/--
Change the table at the end of a path.  Tables that are missing on the way are made; in an array
of tables the way leads through the newest one.  `dotted` says that the path is part of a dotted
key, which must not lead through a table that has a header.
-/
def changeAt? (dotted : Bool) (change : Table → Option Table) :
    List String → Table → Option Table
  | [], table => change table
  | key :: rest, table =>
      match Roster.get? key table.entries with
      | none => do
          let inner ← changeAt? dotted change rest ⟨true, dotted, []⟩
          some { table with entries := Roster.put key inner.toEntry table.entries }
      | some (.closed _) => none
      | some (.table implicit wasDotted entries) =>
          if dotted ∧ implicit = false then none
          else do
            let inner ← changeAt? dotted change rest ⟨implicit, wasDotted, entries⟩
            some { table with entries := Roster.put key inner.toEntry table.entries }
      | some (.tables []) => none
      | some (.tables (newest :: older)) => do
          let inner ← changeAt? dotted change rest (defined newest)
          some { table with
            entries := Roster.put key (.tables (inner.entries :: older)) table.entries }

def enter? (path : List String) (key : String) (value : Document) (table : Table) :
    Option Table :=
  changeAt? true (fun inner =>
    if inner.dotted = path.isEmpty ∨ Roster.has key inner.entries then none
    else some { inner with entries := Roster.put key (.closed value) inner.entries }) path table

def at? : List String → Table → Option Table
  | [], table => some table
  | key :: rest, table =>
      match Roster.get? key table.entries with
      | some (.table implicit dotted entries) => at? rest ⟨implicit, dotted, entries⟩
      | some (.tables (newest :: _)) => at? rest (defined newest)
      | _ => none

/--
The table that a header opens: a new one, or one that has been implicit so far.  Anything else
under the key makes the header a repetition.
-/
def opened? (key : String) (parent : Table) : Option Table :=
  match Roster.get? key parent.entries with
  | none => some (defined [])
  | some (.table true false entries) => some (defined entries)
  | _ => none

def close? (key : String) (table parent : Table) : Option Table :=
  match Roster.get? key parent.entries with
  | none | some (.table true _ _) =>
      some { parent with entries := Roster.put key table.toEntry parent.entries }
  | _ => none

def append? (key : String) (table parent : Table) : Option Table :=
  match Roster.get? key parent.entries with
  | none => some { parent with entries := Roster.put key (.tables [table.entries]) parent.entries }
  | some (.tables elements) =>
      some { parent with
        entries := Roster.put key (.tables (table.entries :: elements)) parent.entries }
  | _ => none

end Table

mutual

def Entry.toDocument : Entry → Document
  | .closed value => value
  | .table _ _ entries => .record (entryFields entries)
  | .tables elements => .list (tableDocuments elements).reverse

def entryFields : List (String × Entry) → List (String × Document)
  | [] => []
  | (key, entry) :: rest => (key, entry.toDocument) :: entryFields rest

def tableDocuments : List (List (String × Entry)) → List Document
  | [] => []
  | entries :: rest => .record (entryFields entries) :: tableDocuments rest

end

end PuzzleShell.Toml

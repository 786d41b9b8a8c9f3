import PuzzleShell.Json.Printer
import PuzzleShell.Json.Reader
import PuzzleShell.Store.Basic
import PuzzleShell.Store.Disk

/-!
# A store in a file

The store is one JSON object in a file.  Every change writes the whole object into a file beside it
and then puts that file into its place.
-/

namespace PuzzleShell

structure FileStore where
  path : String
  entries : Dictionary
  disk : Disk
  deriving DecidableEq, Repr

namespace FileStore

/-- The entries that a text spells; a text that spells none is as good as an empty store. -/
def entriesOf (text : String) : Dictionary :=
  match Json.read? text >>= Document.asTable? (·.asText?) with
  | some entries => Dictionary.ofList entries
  | none => []

/-- The name without its extension.  A point at the beginning of a name begins no extension. -/
def stem (name : String) : String :=
  match name.toList.reverse.dropWhile (· ≠ '.') with
  | '.' :: before => if before.isEmpty then name else String.ofList before.reverse
  | _ => name

def isIdle (piece : String) : Bool :=
  piece = "" || piece = "."

/--
The file beside the one of the store that a change is written into first.  The old extension is
cut off before the new one is put on: so of a name that is one point with an extension `..` is
left, which has no room for another extension, unless a slash follows that keeps the name whole.
-/
def draftPath (path : String) : String :=
  let pieces := Disk.pieces path
  match pieces.reverse.dropWhile isIdle with
  | [] => path
  | name :: before =>
      let front := "".intercalate (before.reverse.map (· ++ "/"))
      if name = ".." then path
      else if stem name = "." ∧ pieces.getLast? = some name then front ++ ".."
      else front ++ stem name ++ ".tmp"

example : draftPath "a/state.json" = "a/state.tmp" := by decide
example : draftPath ".state" = ".state.tmp" := by decide
example : draftPath "a.b/." = "a.tmp" := by decide
example : draftPath "a/..b" = "a/.." := by decide

/-- Open the store in a file.  If the file is not there, the store is empty. -/
def openAt (disk : Disk) (path : String) : Except Fault FileStore :=
  match disk.read path with
  | .ok text => .ok ⟨path, entriesOf text, disk⟩
  | .error .noSuchFile => .ok ⟨path, [], disk⟩
  | .error fault => .error (.disk fault)

/-- Write the entries to the disk: into the draft first, which is then put into place. -/
def flush (medium : Disk.Medium) (store : FileStore) : Except Fault Unit × FileStore :=
  match medium.write store.disk (draftPath store.path) (Json.prettyTexts store.entries) with
  | (.error fault, disk) => (.error (.disk fault), { store with disk := disk })
  | (.ok (), written) =>
      match medium.rename written (draftPath store.path) store.path with
      | (.error fault, disk) => (.error (.disk fault), { store with disk := disk })
      | (.ok (), renamed) => (.ok (), { store with disk := renamed })

def setOn (medium : Disk.Medium) (store : FileStore) (key value : String) :
    Except Fault Unit × FileStore :=
  flush medium { store with entries := Dictionary.put key value store.entries }

instance : Store FileStore where
  get store key := .ok (Dictionary.get? key store.entries)
  set := setOn .faultless

variable (medium : Disk.Medium) (store : FileStore) (key value : String)

/-- Whatever comes of it, nothing changes about a store but the disk. -/
theorem flush_eq : (flush medium store).2 = { store with disk := (flush medium store).2.disk } := by
  unfold flush
  split
  · rfl
  · split <;> rfl

theorem entries_setOn :
    (setOn medium store key value).2.entries = Dictionary.put key value store.entries := by
  rw [setOn, flush_eq]

theorem path_setOn : (setOn medium store key value).2.path = store.path := by
  rw [setOn, flush_eq]

end FileStore

end PuzzleShell

/-!
# Paths

A path is a text; nothing here looks at a tree, so a path may or may not lead anywhere.  A path is
canonical if it is `/` or a sequence of names, each preceded by one `/`.  `resolve` always gives a
canonical path when it is resolved against one.
-/

namespace PuzzleShell.Path

/-- The directory that `~` stands for. -/
def home : String := "/home/guest"

def pieces (path : String) : List (List Char) :=
  path.toList.splitOn '/'

def segments (path : String) : List String :=
  ((pieces path).filter fun piece => !piece.isEmpty).map String.ofList

def ofSegments (names : List String) : String :=
  if names.isEmpty then "/" else "/" ++ "/".intercalate names

def isName (text : String) : Bool :=
  text ≠ "" && !text.toList.contains '/' && text ≠ "." && text ≠ ".."

def Canonical (path : String) : Prop :=
  ∃ names : List String, (∀ name ∈ names, isName name = true) ∧ path = ofSegments names

/-- Go on by one piece.  The names passed so far come last first, and `..` stays at the root. -/
def advance (passed : List String) (piece : List Char) : List String :=
  if piece = [] ∨ piece = ['.'] then passed
  else if piece = ['.', '.'] then passed.tail
  else String.ofList piece :: passed

/-- The names that are left when every `.` and `..` among the pieces is followed. -/
def walk (parts : List (List Char)) : List String :=
  (parts.foldl advance []).reverse

def expandHome (input : String) : String :=
  match input.toList with
  | ['~'] => home
  | '~' :: '/' :: rest => home ++ "/" ++ String.ofList rest
  | _ => input

def resolve (input cwd : String) : String :=
  if input = "" then cwd
  else
    let expanded := expandHome input
    let absolute :=
      if expanded.toList.head? = some '/' then expanded else cwd ++ "/" ++ expanded
    ofSegments (walk (pieces absolute))

/--
The directory of a path and the last name on it.  The root has neither, and a text without a slash
is no path.
-/
def split? (path : String) : Option (String × String) :=
  if path = "/" then none
  else
    match (pieces path).reverse with
    | last :: before :: others =>
        let parent := ['/'].intercalate (before :: others).reverse
        some (if parent = [] then "/" else String.ofList parent, String.ofList last)
    | _ => none

def join (directory name : String) : String :=
  if directory = "/" then "/" ++ name else directory ++ "/" ++ name

/-- Whether a path leads through the entry of another one. -/
def isBelow (path other : String) : Bool :=
  (other ++ "/").toList.isPrefixOf path.toList

def display (path : String) : String :=
  if path = home then "~"
  else if isBelow path home then "~" ++ String.ofList (path.toList.drop home.length)
  else path

example : resolve "../x/./y//" "/home/guest" = "/home/x/y" := by decide
example : resolve "~" "/tmp" = "/home/guest" := by decide
example : resolve "~x" "/" = "/~x" := by decide
example : split? "/a/b" = some ("/a", "b") := by decide
example : split? "/a" = some ("/", "a") := by decide
example : display "/home/guest/.ssh" = "~/.ssh" := by decide

end PuzzleShell.Path

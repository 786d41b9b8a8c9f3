import PuzzleShell.Terminal

/-!
# The program

The outer layer: it finds the configuration and the store, hands lines and passing time to the
terminal, and writes out what the terminal shows and what it stores.

The configuration is the file named by the first argument or else by `DEEPSHELL_CONFIG`; the store
is the file named by `DEEPSHELL_STORE`.
-/

namespace PuzzleShell.Program

/-- How long the program waits for a line before it lets the clock move on, in milliseconds. -/
def frameMs : Nat := 100

def napMs : UInt32 := 5

/-- The disk with what is at a path.  What is there and cannot be read counts as a directory. -/
def look (disk : Disk) (path : String) : IO Disk := do
  let ready := disk.withWay path
  try
    let text ← IO.FS.readFile path
    match ready.write path text with
    | .ok written => return written
    | .error _ => return ready
  catch fault =>
    return if fault matches .noFileOrDirectory .. then ready else ready.withDirectory path

/-- Write the store's file if it changed.  A write that fails leaves the old file as it is. -/
def save (before after : Terminal) : IO Unit := do
  let path := after.game.store.path
  let text := (after.game.store.disk.read path).toOption
  if text ≠ (before.game.store.disk.read path).toOption then
    match text with
    | none => return ()
    | some text =>
        try
          let draft := FileStore.draftPath path
          IO.FS.writeFile draft text
          IO.FS.rename draft path
        catch _ => return ()

def put (shown : String) : IO Unit := do
  let output ← IO.getStdout
  output.putStr shown
  output.flush

partial def await (line : Task (Except IO.Error String)) (deadline : Nat) : IO Bool := do
  if ← IO.hasFinished line then return true
  if deadline ≤ (← IO.monoMsNow) then return false
  IO.sleep napMs
  await line deadline

/-- Play on: `last` is the time of the last frame, and `line` the line that is being read. -/
partial def play (terminal : Terminal) (last : Nat) (line : Task (Except IO.Error String)) :
    IO Unit := do
  let ready ← await line ((← IO.monoMsNow) + frameMs)
  let taken := if ready then
      match line.get with
      | .ok text => (Text.lines text).head? >>= terminal.take?
      | .error _ => none
    else some ("", terminal)
  match taken with
  | none => return ()
  | some (answer, afterLine) =>
      put answer
      let now ← IO.monoMsNow
      let (shown, afterFrame) := afterLine.frame (now - last)
      save terminal afterFrame
      put shown
      let next ← if ready then IO.asTask (do (← IO.getStdin).getLine) else pure line
      play afterFrame now next

end PuzzleShell.Program

def main (arguments : List String) : IO UInt32 := do
  let configPath := arguments.head?.or (← IO.getEnv "DEEPSHELL_CONFIG")
  let storePath := (← IO.getEnv "DEEPSHELL_STORE").getD PuzzleShell.Terminal.defaultStorePath
  let disk ← PuzzleShell.Program.look .empty storePath
  let disk ← match configPath with
    | some path => PuzzleShell.Program.look disk path
    | none => pure disk
  match PuzzleShell.Terminal.start disk configPath storePath with
  | .error fault =>
      IO.eprintln ("Error: " ++ fault.message)
      return 1
  | .ok (greeting, terminal) =>
      PuzzleShell.Program.put greeting
      let first ← IO.asTask (do (← IO.getStdin).getLine)
      PuzzleShell.Program.play terminal (← IO.monoMsNow) first
      return 0

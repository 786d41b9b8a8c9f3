import PuzzleShell.Command.Basic

/-!
# Handing in flags
-/

namespace PuzzleShell.Command

/-- Hand in a flag.  A flag of several words is handed in with one blank between them. -/
def submit : Command where
  name := "submit"
  aliases := ["flag"]
  description := "Submit a captured flag"
  usage := "submit <FLAG\x7b...\x7d>"
  category := "challenge"
  run backend words :=
    if words.isEmpty then Action.misuse "submit <FLAG\x7b...\x7d>"
    else do
      let verdict ← Action.ofExcept (backend.flags (" ".intercalate words))
      match verdict.accepted, verdict.id with
      | true, some id =>
          Action.changeSession fun session =>
            { session with solved := Solved.insert id session.solved }
      | _, _ => pure ()
      return .flagChecked verdict.accepted verdict.id

end PuzzleShell.Command

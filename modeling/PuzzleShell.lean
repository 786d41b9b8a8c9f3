import PuzzleShell.Config.Encode
import PuzzleShell.Main
import PuzzleShell.Proofs.Tree.Place
import PuzzleShell.Tree.Agreement
import PuzzleShell.Proofs.Tree.Edit
import PuzzleShell.Proofs.Tree.Integrity
import PuzzleShell.Proofs.Tree.Sticky
import PuzzleShell.Proofs.Tree.Alike
import PuzzleShell.Proofs.Tree.Secrecy
import PuzzleShell.Proofs.Command.Keeps
import PuzzleShell.Proofs.Command.Ordinary
import PuzzleShell.Proofs.Command.Layers
import PuzzleShell.Proofs.Command.Reading
import PuzzleShell.Proofs.Game.Discipline
import PuzzleShell.Proofs.Game.Clock
import PuzzleShell.Proofs.Game.Orderly
import PuzzleShell.Proofs.Game.Firing
import PuzzleShell.Proofs.Tree.InPlace
import PuzzleShell.Proofs.Tree.Locality
import PuzzleShell.Proofs.Game.Sets
import PuzzleShell.Proofs.Game.Beginning
import PuzzleShell.Proofs.Game.Tidy
import PuzzleShell.Proofs.Game.Progress
import PuzzleShell.Proofs.Game.Settling
import PuzzleShell.Proofs.Game.Staying
import PuzzleShell.Proofs.Game.Aftermath
import PuzzleShell.Proofs.Tree.Provenance
import PuzzleShell.Proofs.Command.Origin
import PuzzleShell.Proofs.Command.Key
import PuzzleShell.Proofs.Game.Provenance
import PuzzleShell.Proofs.Game.Admission
import PuzzleShell.Proofs.Game.Row
import PuzzleShell.Proofs.Game.Cycle
import PuzzleShell.Proofs.Game.Reckoning
import PuzzleShell.Proofs.Json.Token
import PuzzleShell.Proofs.Json.RoundTrip
import PuzzleShell.Proofs.Progress
import PuzzleShell.Proofs.Config
import PuzzleShell.Proofs.Game.Restart
import PuzzleShell.Proofs.Tree.WellFormed
import PuzzleShell.Proofs.Command.Line
import PuzzleShell.Proofs.Command.Canonical
import PuzzleShell.Proofs.World
import PuzzleShell.Proofs.Game.Moments
import PuzzleShell.Proofs.Game.WellFormed
import PuzzleShell.Proofs.Game.Isolation
import PuzzleShell.Proofs.Game.Identity
import PuzzleShell.Proofs.Game.Reset
import PuzzleShell.Proofs.Tree.Transport
import PuzzleShell.Proofs.Tree.Independence
import PuzzleShell.Proofs.Command.Unpacking
import PuzzleShell.Proofs.Content.Archive
import PuzzleShell.Proofs.Path.Resolve
import PuzzleShell.Proofs.Command.Entering
import PuzzleShell.Proofs.Text.Base64
import PuzzleShell.Proofs.Command.Codec
import PuzzleShell.Proofs.Timers.History
import PuzzleShell.Proofs.Path.Display
import PuzzleShell.Proofs.CommandLine.Spelling
import PuzzleShell.Proofs.CommandLine.Trimming
import PuzzleShell.Proofs.Command.Registration
import PuzzleShell.Proofs.Transcript
import PuzzleShell.Proofs.Screen
import PuzzleShell.Proofs.Command.Attempt
import PuzzleShell.Proofs.Game.Lockout
import PuzzleShell.Proofs.Game.Concealment
import PuzzleShell.Proofs.Terminal
import PuzzleShell.Proofs.Content.Render
import PuzzleShell.Proofs.Command.Turns
import PuzzleShell.Proofs.Text.Joining
import PuzzleShell.Proofs.Tree.Overwrite
import PuzzleShell.Proofs.Command.Append
import PuzzleShell.Proofs.Json.Table
import PuzzleShell.Proofs.Store.Disk
import PuzzleShell.Proofs.Store.File
import PuzzleShell.Proofs.Store.Calls

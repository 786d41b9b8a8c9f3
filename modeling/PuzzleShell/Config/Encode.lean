import PuzzleShell.Config.Basic
import PuzzleShell.Document

/-!
# Configuration as a document

The document that lists every setting.  Accounts and flags are given by position.
-/

namespace PuzzleShell.Config

def natural (value : Nat) : Document := .integer value

def toDocument (config : Config) : Document :=
  .record
    [("shell", .record
       [("user", .text config.shell.user), ("start_path", .text config.shell.startPath),
        ("deep_user", .text config.shell.deepUser), ("deep_path", .text config.shell.deepPath),
        ("hostname", .text config.shell.hostname)]),
     ("shatter", .record
       [("threshold", natural config.collapse.threshold),
        ("failure_ms", natural config.collapse.failureMs),
        ("shatter_ms", natural config.collapse.shatterMs),
        ("recover_ms", natural config.collapse.recoverMs)]),
     ("countdown", .record
       [("initial_secs", natural config.countdown.initialSecs),
        ("penalty_secs", natural config.countdown.penaltySecs),
        ("tick_ms", natural config.countdown.tickMs)]),
     ("layer", .record
       [("host", .text config.layer.host), ("key_marker", .text config.layer.keyMarker),
        ("connect_delay_ms", natural config.layer.connectDelayMs),
        ("disconnect_delay_ms", natural config.layer.disconnectDelayMs)]),
     ("escalation", .record [("max_failures", natural config.maxFailures)]),
     ("storage", .record
       [("solved_key", .text config.storage.solvedKey),
        ("countdown_key", .text config.storage.countdownKey)]),
     ("account", .list (config.accounts.map fun account =>
       .list [.text account.user, .text account.password, .text account.home])),
     ("flag", .list (config.flags.map fun entry => .list [.text entry.flag, natural entry.id])),
     ("content", .record (config.content.map fun entry => (entry.1, .text entry.2)))]

end PuzzleShell.Config

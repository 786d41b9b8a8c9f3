import PuzzleShell.Config.Basic
import PuzzleShell.Document

/-!
# Configuration from a document

Missing settings keep their defaults and unknown ones are passed over.  A given list of accounts
or flags, or a given table of texts, replaces the whole default.
-/

namespace PuzzleShell.Config

open Document (optionalField? requiredField?)

def word32 : Nat := 1 <<< 32

def word64 : Nat := 1 <<< 64

def readShell? (surplus : Document.Surplus) (document : Document) : Option ShellSettings := do
  let fields ← document.asFields?
    ["user", "start_path", "deep_user", "deep_path", "hostname"] surplus
  some {
    user := ← optionalField? fields "user" defaultShell.user (·.asText?)
    startPath := ← optionalField? fields "start_path" defaultShell.startPath (·.asText?)
    deepUser := ← optionalField? fields "deep_user" defaultShell.deepUser (·.asText?)
    deepPath := ← optionalField? fields "deep_path" defaultShell.deepPath (·.asText?)
    hostname := ← optionalField? fields "hostname" defaultShell.hostname (·.asText?) }

def readCollapse? (surplus : Document.Surplus) (document : Document) :
    Option CollapseSettings := do
  let fields ← document.asFields?
    ["threshold", "failure_ms", "shatter_ms", "recover_ms"] surplus
  let default := defaultCollapse
  some {
    threshold := ← optionalField? fields "threshold" default.threshold (·.asNat? word32)
    failureMs := ← optionalField? fields "failure_ms" default.failureMs (·.asNat? word64)
    shatterMs := ← optionalField? fields "shatter_ms" default.shatterMs (·.asNat? word64)
    recoverMs := ← optionalField? fields "recover_ms" default.recoverMs (·.asNat? word64) }

def readCountdown? (surplus : Document.Surplus) (document : Document) :
    Option CountdownSettings := do
  let fields ← document.asFields? ["initial_secs", "penalty_secs", "tick_ms"] surplus
  let default := defaultCountdown
  some {
    initialSecs := ← optionalField? fields "initial_secs" default.initialSecs (·.asNat? word32)
    penaltySecs := ← optionalField? fields "penalty_secs" default.penaltySecs (·.asNat? word32)
    tickMs := ← optionalField? fields "tick_ms" default.tickMs (·.asNat? word64) }

def readLayer? (surplus : Document.Surplus) (document : Document) : Option LayerSettings := do
  let fields ← document.asFields?
    ["host", "key_marker", "connect_delay_ms", "disconnect_delay_ms"] surplus
  let default := defaultLayer
  some {
    host := ← optionalField? fields "host" default.host (·.asText?)
    keyMarker := ← optionalField? fields "key_marker" default.keyMarker (·.asText?)
    connectDelayMs :=
      ← optionalField? fields "connect_delay_ms" default.connectDelayMs (·.asNat? word64)
    disconnectDelayMs :=
      ← optionalField? fields "disconnect_delay_ms" default.disconnectDelayMs (·.asNat? word64) }

def readMaxFailures? (surplus : Document.Surplus) (document : Document) : Option Nat := do
  let fields ← document.asFields? ["max_failures"] surplus
  optionalField? fields "max_failures" default.maxFailures (·.asNat? word32)

def readStorage? (surplus : Document.Surplus) (document : Document) : Option StorageSettings := do
  let fields ← document.asFields? ["solved_key", "countdown_key"] surplus
  some {
    solvedKey := ← optionalField? fields "solved_key" defaultStorage.solvedKey (·.asText?)
    countdownKey :=
      ← optionalField? fields "countdown_key" defaultStorage.countdownKey (·.asText?) }

/-- An account from a document; it has no defaults. -/
def readAccount? (surplus : Document.Surplus) (document : Document) : Option Account := do
  let fields ← document.asFields? ["user", "password", "home"] surplus
  some {
    user := ← requiredField? fields "user" (·.asText?)
    password := ← requiredField? fields "password" (·.asText?)
    home := ← requiredField? fields "home" (·.asText?) }

def readFlag? (surplus : Document.Surplus) (document : Document) : Option FlagEntry := do
  let fields ← document.asFields? ["flag", "id"] surplus
  some {
    flag := ← requiredField? fields "flag" (·.asText?)
    id := ← requiredField? fields "id" (·.asNat? word32) }

/-- A table of texts from a document; of two entries with one name the later counts. -/
def readTexts? (document : Document) : Option (Roster String) := do
  let entries ← document.asTable? (·.asText?)
  some (entries.foldl (fun table entry => Roster.put entry.1 entry.2 table) [])

/-- A configuration from a document, not yet checked. -/
def ofDocument? (surplus : Document.Surplus) (document : Document) : Option Config := do
  let fields ← document.asFields?
    ["shell", "shatter", "countdown", "layer", "escalation", "storage", "account", "flag",
     "content"] surplus
  some {
    shell := ← optionalField? fields "shell" default.shell (readShell? surplus)
    collapse := ← optionalField? fields "shatter" default.collapse (readCollapse? surplus)
    countdown := ← optionalField? fields "countdown" default.countdown (readCountdown? surplus)
    layer := ← optionalField? fields "layer" default.layer (readLayer? surplus)
    maxFailures :=
      ← optionalField? fields "escalation" default.maxFailures (readMaxFailures? surplus)
    storage := ← optionalField? fields "storage" default.storage (readStorage? surplus)
    accounts :=
      ← optionalField? fields "account" default.accounts (·.asList? (readAccount? surplus))
    flags := ← optionalField? fields "flag" default.flags (·.asList? (readFlag? surplus))
    content := ← optionalField? fields "content" default.content readTexts? }

def ofJson (document : Document) : Except Fault Config := do
  let some config := ofDocument? .refused document | .error .malformedJson
  config.validate
  return config

end PuzzleShell.Config

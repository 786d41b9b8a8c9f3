import PuzzleShell.Flag
import PuzzleShell.Roster

/-!
# Configuration

Every setting has a default, so the default configuration is a complete game and a configuration
file lists only what it changes.
-/

namespace PuzzleShell

structure ShellSettings where
  user : String
  startPath : String
  deepUser : String
  deepPath : String
  hostname : String
  deriving DecidableEq, Repr

structure CollapseSettings where
  threshold : Nat
  failureMs : Nat
  shatterMs : Nat
  recoverMs : Nat
  deriving DecidableEq, Repr

structure CountdownSettings where
  initialSecs : Nat
  penaltySecs : Nat
  tickMs : Nat
  deriving DecidableEq, Repr

structure LayerSettings where
  host : String
  keyMarker : String
  connectDelayMs : Nat
  disconnectDelayMs : Nat
  deriving DecidableEq, Repr

structure StorageSettings where
  solvedKey : String
  countdownKey : String
  deriving DecidableEq, Repr

structure Account where
  user : String
  password : String
  home : String
  deriving DecidableEq, Repr

structure Config where
  shell : ShellSettings
  collapse : CollapseSettings
  countdown : CountdownSettings
  layer : LayerSettings
  /-- Failed attempts in a row that are answered by a notice. -/
  maxFailures : Nat
  storage : StorageSettings
  accounts : List Account
  flags : List FlagEntry
  /-- The protected texts by identifier. -/
  content : Roster String
  deriving DecidableEq, Repr

namespace Config

def defaultShell : ShellSettings where
  user := "guest"
  startPath := "/home/guest"
  deepUser := "root"
  deepPath := "/root"
  hostname := "archive"

def defaultCollapse : CollapseSettings where
  threshold := 5
  failureMs := 2500
  shatterMs := 3000
  recoverMs := 1500

def defaultCountdown : CountdownSettings where
  initialSecs := 300
  penaltySecs := 30
  tickMs := 1000

def defaultLayer : LayerSettings where
  host := "10.13.37.7"
  keyMarker := "-----BEGIN DEEP ACCESS KEY-----"
  connectDelayMs := 1200
  disconnectDelayMs := 800

def defaultStorage : StorageSettings where
  solvedKey := "deepshell.solved"
  countdownKey := "deepshell.countdown"

def defaultAccounts : List Account :=
  [⟨"guest", "guest", "/home/guest"⟩, ⟨"operator", "Tr0ub4dor&3", "/home/operator"⟩]

def defaultFlags : List FlagEntry :=
  [⟨"FLAG\x7bh1dd3n_1n_pl41n_s1ght\x7d", 1⟩, ⟨"FLAG\x7bf0rm4t_str1ng_l34k\x7d", 2⟩,
   ⟨"FLAG\x7bd33p_l4y3r_r00t\x7d", 3⟩]

def defaultContent : Roster String :=
  [("deep-access-key",
    "-----BEGIN DEEP ACCESS KEY-----\n" ++
    "b3BlbnNzaC1rZXktdjEAAAAABG5vbmUAAAAEbm9uZQAAAAAAAAABAAAAMwAAAAtz\n" ++
    "c2gtZWQyNTUxOQAAACBkZWVwc2hlbGwtY29yZS1hY2Nlc3Mtb25seS1ub3QtcmVh\n" ++
    "-----END DEEP ACCESS KEY-----"),
   ("deep-flag", "You made it below the archive.\nFLAG\x7bd33p_l4y3r_r00t\x7d"),
   ("echo-service-leak", "0x7ffd5e1c 0x00000000 0xdeadbeef FLAG\x7bf0rm4t_str1ng_l34k\x7d")]

def default : Config where
  shell := defaultShell
  collapse := defaultCollapse
  countdown := defaultCountdown
  layer := defaultLayer
  maxFailures := 3
  storage := defaultStorage
  accounts := defaultAccounts
  flags := defaultFlags
  content := defaultContent

def validate (config : Config) : Except Fault Unit :=
  if config.countdown.tickMs = 0 then .error (.setting .tickNotPositive)
  else if config.collapse.threshold = 0 then .error (.setting .thresholdNotPositive)
  else .ok ()

theorem validate_eq_ok_iff {config : Config} :
    config.validate = .ok () ↔ 0 < config.countdown.tickMs ∧ 0 < config.collapse.threshold := by
  unfold validate
  split
  next none => simp [none]
  next some =>
    split
    next none => simp [none]
    next positive => simp [Nat.pos_of_ne_zero some, Nat.pos_of_ne_zero positive]

/-- The account of a user; of several, the first. -/
def account? (config : Config) (user : String) : Option Account :=
  config.accounts.find? (·.user = user)

end Config

end PuzzleShell

/-!
# What can go wrong

A fault is a cause.  Its wording is given once, in `Fault.message`, and `Fault.isUserMistake` tells
the faults that the player is shown from those that are kept from them.
-/

namespace PuzzleShell

inductive Complaint where
  | invalidMode (spec : String)
  | moveIntoItself (source target : String)
  | copyIntoItself (source target : String)
  | omittedDirectory (path : String)
  | notOwner (path : String)
  | unterminatedSingleQuote
  | unterminatedDoubleQuote
  | noHelp (name : String)
  | invalidOption (letter : Char)
  | usage (form : String)
  | missingRedirectTarget
  | missingOperand
  | missingFileOperand
  | missingOperandAfter (argument : String)
  | removesDirectory (path : String)
  | invalidEncoding
  | decodedNoText
  | optionNeedsDirectory
  | optionNeedsArgument (letter : Char)
  | notArchive (path : String)
  | portRefused (host port : String)
  | hostRefused (host : String)
  | keyRefused (account : String)
  /-- A complaint worded by whoever makes it. -/
  | other (text : String)
  deriving DecidableEq, Repr

def Complaint.message : Complaint → String
  | .invalidMode spec => "invalid mode: '" ++ spec ++ "'"
  | .moveIntoItself source target =>
      "cannot move '" ++ source ++ "' to a subdirectory of itself, '" ++ target ++ "'"
  | .copyIntoItself source target =>
      "cannot copy '" ++ source ++ "' into itself, '" ++ target ++ "'"
  | .omittedDirectory path => "-r not specified; omitting directory '" ++ path ++ "'"
  | .notOwner path => "changing permissions of '" ++ path ++ "': Operation not permitted"
  | .unterminatedSingleQuote => "unterminated single quote"
  | .unterminatedDoubleQuote => "unterminated double quote"
  | .noHelp name => "no help for '" ++ name ++ "'"
  | .invalidOption letter => "invalid option -- '" ++ letter.toString ++ "'"
  | .usage form => "usage: " ++ form
  | .missingRedirectTarget => "syntax error near unexpected token `newline'"
  | .missingOperand => "missing operand"
  | .missingFileOperand => "missing file operand"
  | .missingOperandAfter argument => "missing operand after '" ++ argument ++ "'"
  | .removesDirectory path => "cannot remove '" ++ path ++ "': Is a directory"
  | .invalidEncoding => "invalid input"
  | .decodedNoText => "decoded data is not text"
  | .optionNeedsDirectory => "option -d requires a directory"
  | .optionNeedsArgument letter => "option requires an argument -- '" ++ letter.toString ++ "'"
  | .notArchive path => path ++ ": not a zip archive"
  | .portRefused host port =>
      "connect to " ++ host ++ " port " ++ port ++ " (tcp) failed: Connection refused"
  | .hostRefused host => "connect to host " ++ host ++ " port 22: Connection refused"
  | .keyRefused account => account ++ ": Permission denied (publickey)."
  | .other text => text

inductive BadSetting where
  | tickNotPositive
  | thresholdNotPositive
  | other (text : String)
  deriving DecidableEq, Repr

def BadSetting.message : BadSetting → String
  | .tickNotPositive => "countdown.tick_ms must be positive"
  | .thresholdNotPositive => "shatter.threshold must be positive"
  | .other text => text

inductive DiskFault where
  | noSuchFile
  | busy
  | notDirectory
  | isDirectory
  | nameTooLong
  /-- No path can hold the null character. -/
  | nullInPath
  | other (text : String)
  deriving DecidableEq, Repr

def DiskFault.message : DiskFault → String
  | .noSuchFile => "No such file or directory (os error 2)"
  | .busy => "Device or resource busy (os error 16)"
  | .notDirectory => "Not a directory (os error 20)"
  | .isDirectory => "Is a directory (os error 21)"
  | .nameTooLong => "File name too long (os error 36)"
  | .nullInPath => "file name contained an unexpected NUL byte"
  | .other text => text

inductive OracleFault where
  | unknownContent (id : String)
  | other (text : String)
  deriving DecidableEq, Repr

def OracleFault.message : OracleFault → String
  | .unknownContent id => "unknown content id '" ++ id ++ "'"
  | .other text => text

/-- The cause of a failure.  The tree's faults carry the path that they concern. -/
inductive Fault where
  | notFound (path : String)
  | permissionDenied (path : String)
  | notADirectory (path : String)
  | isADirectory (path : String)
  | alreadyExists (path : String)
  | complaint (cause : Complaint)
  | oracle (cause : OracleFault)
  | setting (cause : BadSetting)
  | disk (cause : DiskFault)
  /-- A configuration text that is no valid document of its format. -/
  | malformedToml
  | malformedJson
  deriving DecidableEq, Repr

namespace Fault

def message : Fault → String
  | .notFound path => path ++ ": No such file or directory"
  | .permissionDenied path => path ++ ": Permission denied"
  | .notADirectory path => path ++ ": Not a directory"
  | .isADirectory path => path ++ ": Is a directory"
  | .alreadyExists path => path ++ ": File exists"
  | .complaint cause => cause.message
  | .oracle cause => "content oracle error: " ++ cause.message
  | .setting cause => "config error: " ++ cause.message
  | .disk cause => "I/O error: " ++ cause.message
  | .malformedToml => "TOML parse error"
  | .malformedJson => "JSON error"

/-- Whether the fault is an ordinary mistake of the player and not an internal one. -/
def isUserMistake : Fault → Bool
  | .notFound _ | .permissionDenied _ | .notADirectory _ | .isADirectory _ | .alreadyExists _
  | .complaint _ => true
  | .oracle _ | .setting _ | .disk _ | .malformedToml | .malformedJson => false

end Fault

end PuzzleShell

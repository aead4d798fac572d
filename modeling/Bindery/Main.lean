import Bindery.CommandLine.Run
import Std.Time.DateTime.Timestamp

/-! The program on a real machine. -/
namespace Bindery

/-- What the system says about a failure with its number. -/
def systemFault (code : UInt32) (details : String) : Files.Fault :=
  match code.toNat with
  | 2 => .missing
  | 17 => .occupied
  | 20 => .notFolder
  | 21 => .isFolder
  | 36 => .tooLong
  | n => .other (details ++ " (os error " ++ toString n ++ ")")

/-- Why an action failed. -/
def faultOf : IO.Error → Files.Fault
  | .alreadyExists _ code details | .noFileOrDirectory _ code details
  | .inappropriateType _ code details | .permissionDenied _ code details
  | .invalidArgument _ code details | .noSuchThing _ code details
  | .resourceExhausted _ code details => systemFault code details
  | e => .other (toString e)

def timeOfDay : IO String := do
  let now ← Std.Time.Timestamp.now
  let seconds := (now.toSecondsSinceUnixEpoch.val % 86400).toNat
  let two (n : Nat) : String := (if n < 10 then "0" else "") ++ toString n
  return two (seconds / 3600) ++ ":" ++ two (seconds / 60 % 60) ++ ":" ++ two (seconds % 60)

/-- The machine as a host. -/
def machine : CommandLine.Host IO where
  clock := timeOfDay
  say := IO.println
  complain := IO.eprintln
  read path := do
    try return some (← IO.FS.readBinFile path).toList
    catch _ => return none
  makeFolder path := do
    try
      IO.FS.createDir path
      return .ok ()
    catch e => return .error (faultOf e)
  isFolder path := do
    try
      let _ ← IO.FS.realPath (path ++ "/.")
      return true
    catch _ => return false
  write path text := do
    try
      IO.FS.writeFile path text
      return true
    catch _ => return false

end Bindery

/-- Run the program on its arguments. -/
def main (arguments : List String) : IO UInt32 := do
  let terminal ← (← IO.getStdout).isTty
  let colors ← IO.getEnv "COLORFGBG"
  return (← Bindery.machine.run { terminal, colors } arguments).toUInt32

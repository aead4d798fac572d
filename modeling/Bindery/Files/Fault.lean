/-! What can go wrong with files and folders. -/
namespace Bindery.Files

/-- Why something cannot be done with a path. -/
inductive Fault where
  | missing
  | occupied
  | notFolder
  | isFolder
  | tooLong
  | badDescriptor
  | badName
  | noRoot
  | other (text : String)
deriving DecidableEq, Inhabited

def Fault.reason : Fault → String
  | .missing => "No such file or directory"
  | .occupied => "File exists"
  | .notFolder => "Not a directory"
  | .isFolder => "Is a directory"
  | .tooLong => "File name too long"
  | .badDescriptor => "Bad file descriptor"
  | .badName => "file name contained an unexpected NUL byte"
  | .noRoot => "failed to create whole tree"
  | .other text => text

/-- The number of a fault that the system finds. -/
def Fault.number? : Fault → Option Nat
  | .missing => some 2
  | .badDescriptor => some 9
  | .occupied => some 17
  | .notFolder => some 20
  | .isFolder => some 21
  | .tooLong => some 36
  | .badName | .noRoot | .other _ => none

def Fault.message (f : Fault) : String :=
  match f.number? with
  | some n => f.reason ++ " (os error " ++ toString n ++ ")"
  | none => f.reason

end Bindery.Files

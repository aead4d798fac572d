/-! Signals.

A process can get a signal, which ends it unless it is prepared. The end of a process is
listed among the signals, although it is none, because a process can prepare for it. -/
namespace Bindery.Formatter.Shell

/-- A signal, by its number. -/
abbrev Signal : Type := Nat

namespace Signal

/-- The names of the signals, from the end of the process on. -/
def names : List String :=
  ["EXIT", "HUP", "INT", "QUIT", "ILL", "TRAP", "ABRT", "BUS", "FPE", "KILL", "USR1", "SEGV",
    "USR2", "PIPE", "ALRM", "TERM", "16", "CHLD", "CONT", "STOP", "TSTP", "TTIN", "TTOU", "URG",
    "XCPU", "XFSZ", "VTALRM", "PROF", "WINCH", "IO", "PWR", "SYS", "32", "33", "RTMIN",
    "RTMIN+1", "RTMIN+2", "RTMIN+3", "RTMIN+4", "RTMIN+5", "RTMIN+6", "RTMIN+7", "RTMIN+8",
    "RTMIN+9", "RTMIN+10", "RTMIN+11", "RTMIN+12", "RTMIN+13", "RTMIN+14", "RTMIN+15",
    "RTMAX-14", "RTMAX-13", "RTMAX-12", "RTMAX-11", "RTMAX-10", "RTMAX-9", "RTMAX-8",
    "RTMAX-7", "RTMAX-6", "RTMAX-5", "RTMAX-4", "RTMAX-3", "RTMAX-2", "RTMAX-1", "RTMAX"]

def exit : Signal := 0

/-- The signal that no process can prepare for. -/
def kill : Signal := 9

/-- The signal of a process that has run out of room. -/
def segmentation : Signal := 11

/-- The signal that asks a process to end. -/
def terminate : Signal := 15

def name (signal : Signal) : String := names.getD signal (toString signal)

/-- Whether the signal does nothing to a process that is not prepared. -/
def isIgnored (signal : Signal) : Bool :=
  signal ∈ [exit, 17, 18, 19, 20, 21, 22, 23, 28]

/-- The signal that a number or a name in any case stands for. -/
def parse? (text : String) : Option Signal :=
  match text.toNat? with
  | some n => if text.all Char.isDigit && n < names.length then some n else none
  | none => names.findIdx? fun name => name = text.map Char.toUpper

/-- What is said about a process that the signal ended; nothing about an interruption. -/
def report? (signal : Signal) : Option String :=
  match signal with
  | 1 => some "Hangup"
  | 3 => some "Quit"
  | 4 => some "Illegal instruction"
  | 5 => some "Trace/breakpoint trap"
  | 6 => some "Aborted"
  | 7 => some "Bus error"
  | 8 => some "Floating point exception"
  | 9 => some "Killed"
  | 10 => some "User defined signal 1"
  | 11 => some "Segmentation fault"
  | 12 => some "User defined signal 2"
  | 14 => some "Alarm clock"
  | 15 => some "Terminated"
  | 16 => some "Stack fault"
  | 24 => some "CPU time limit exceeded"
  | 25 => some "File size limit exceeded"
  | 26 => some "Virtual timer expired"
  | 27 => some "Profiling timer expired"
  | 29 => some "I/O possible"
  | 30 => some "Power failure"
  | 31 => some "Bad system call"
  | _ => none

end Signal

end Bindery.Formatter.Shell

import LuaTree.Shell.Raw

/-!
# Signals
-/

namespace LuaTree.Shell.Signal

def table : List (String × Nat) :=
  [("HUP", 1), ("INT", 2), ("QUIT", 3), ("ILL", 4), ("TRAP", 5), ("ABRT", 6), ("BUS", 7), ("FPE", 8),
   ("KILL", 9), ("USR1", 10), ("SEGV", 11), ("USR2", 12), ("PIPE", 13), ("ALRM", 14), ("TERM", 15),
   ("STKFLT", 16), ("CHLD", 17), ("CONT", 18), ("STOP", 19), ("TSTP", 20), ("TTIN", 21), ("TTOU", 22),
   ("URG", 23), ("XCPU", 24), ("XFSZ", 25), ("VTALRM", 26), ("PROF", 27), ("WINCH", 28), ("POLL", 29),
   ("PWR", 30), ("SYS", 31)]

/-- The signal that a name or a number stands for. -/
def ofText? (t : Raw) : Option Nat :=
  match Raw.nat? t with
  | some n => if n ≤ 64 then some n else none
  | none =>
    let name := (String.ofList t).toUpper
    table.lookup (if name.startsWith "SIG" then (name.drop 3).copy else name)

/-- Whether a signal ends a process that has not said what is to be done. -/
def isFatal (n : Nat) : Bool := !([0, 17, 18, 19, 20, 21, 22, 23, 28].contains n)

/-- What a shell says about a program that a signal has ended. -/
def ending (n : Nat) : String :=
  match n with
  | 1 => "Hangup"
  | 3 => "Quit"
  | 4 => "Illegal instruction"
  | 5 => "Trace/breakpoint trap"
  | 6 => "Aborted"
  | 7 => "Bus error"
  | 8 => "Floating point exception"
  | 9 => "Killed"
  | 10 => "User defined signal 1"
  | 11 => "Segmentation fault"
  | 12 => "User defined signal 2"
  | 14 => "Alarm clock"
  | 15 => "Terminated"
  | _ => ""

end LuaTree.Shell.Signal

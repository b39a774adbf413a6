/-!
# Signals and exits of processes
-/

namespace Observatory

/-- The signals of the system, in the order of their numbers. -/
inductive Signal where
  | hup
  | int
  | quit
  | ill
  | trap
  | abrt
  | bus
  | fpe
  | kill
  | usr1
  | segv
  | usr2
  | pipe
  | alrm
  | term
  | stkflt
  | chld
  | cont
  | stop
  | tstp
  | ttin
  | ttou
  | urg
  | xcpu
  | xfsz
  | vtalrm
  | prof
  | winch
  | io
  | pwr
  | sys
  deriving Repr, DecidableEq

namespace Signal

def names : List (Signal × String) :=
  [(hup, "HUP"), (int, "INT"), (quit, "QUIT"), (ill, "ILL"), (trap, "TRAP"), (abrt, "ABRT"),
    (bus, "BUS"), (fpe, "FPE"), (kill, "KILL"), (usr1, "USR1"), (segv, "SEGV"), (usr2, "USR2"),
    (pipe, "PIPE"), (alrm, "ALRM"), (term, "TERM"), (stkflt, "STKFLT"), (chld, "CHLD"),
    (cont, "CONT"), (stop, "STOP"), (tstp, "TSTP"), (ttin, "TTIN"), (ttou, "TTOU"),
    (urg, "URG"), (xcpu, "XCPU"), (xfsz, "XFSZ"), (vtalrm, "VTALRM"), (prof, "PROF"),
    (winch, "WINCH"), (io, "IO"), (pwr, "PWR"), (sys, "SYS")]

/-- The name without its first three letters. -/
def shortName (s : Signal) : String := ((names.find? fun p => p.1 == s).map Prod.snd).getD ""

def name (s : Signal) : String := "SIG" ++ s.shortName

/-- The number of a signal, counted from one. -/
def number (s : Signal) : Nat := (names.findIdx fun p => p.1 == s) + 1

def ofNumber? (n : Nat) : Option Signal :=
  if n = 0 then none else (names[n - 1]?).map Prod.fst

end Signal

/-- How a child process ended. -/
inductive ChildExit where
  | exited (code : Nat)
  | signaled (signal : Signal)
  /-- Killed because it ran too long. -/
  | timedOut
  /-- Somebody else collected the exit status. -/
  | lost
  deriving DecidableEq

namespace ChildExit

def isSuccess (e : ChildExit) : Bool := e == exited 0

def text : ChildExit → String
  | exited code => s!"exited {code}"
  | signaled signal => "signaled " ++ signal.name
  | timedOut => "timed out"
  | lost => "lost"

end ChildExit

end Observatory

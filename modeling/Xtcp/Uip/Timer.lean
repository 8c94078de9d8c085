import Mathlib.Init

namespace Xtcp.Timer

-- clock_time_t is an int; differences wrap.
abbrev Word := BitVec 32

structure UipTimer where
  start : Word
  interval : Word
  deriving DecidableEq, Repr

def timerSet (now interval : Word) : UipTimer := ⟨now, interval⟩

def timerExpired (now : Word) (t : UipTimer) : Bool := t.interval.sle (now - t.start)

def clockSecond : Word := 1000

end Xtcp.Timer

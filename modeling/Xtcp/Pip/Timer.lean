import Mathlib.Logic.Function.Basic

namespace Xtcp.Pip

abbrev Word := BitVec 32

def epochBit : Nat := 30

-- The pair that pipSetTimeOut computes: an epoch and a time within it.
structure Wake where
  epoch : Word
  time : Word
  window : time >>> 30 = epoch &&& 3
  deriving DecidableEq

structure TimeOut where
  timerNumber : Int
  wake : Wake
  deriving DecidableEq

def TimeOut.zero : TimeOut := ⟨0, ⟨0, 0, rfl⟩⟩

-- The array timeOut.
abbrev Slots := Nat → TimeOut

def timeOutSize : Nat := 10

def put (q : Slots) (i : Nat) (x : TimeOut) : Option Slots :=
  if i < timeOutSize then some (Function.update q i x) else none

-- timeOut[dest] = timeOut[src]
def copy (q : Slots) (dest src : Nat) : Option Slots :=
  if src < timeOutSize then put q dest (q src) else none

def epochAfter (w1 w2 : Wake) : Bool :=
  if w2.epoch.slt w1.epoch then true
  else if w1.epoch.slt w2.epoch then false
  else (0 : Word).slt (w1.time - w2.time)

-- The loop that moves the n entries behind index i down by one.
def closeGap (i : Nat) : Nat → Slots → Option Slots
  | 0, q => some q
  | n + 1, q => (copy q i (i + 1)).bind (closeGap (i + 1) n)

-- The loops below stand at index k - 1, and give the k where they break.
def sink (w : Wake) : Nat → Slots → Option (Nat × Slots)
  | 0, q => some (0, q)
  | k + 1, q =>
    if epochAfter w (q k).wake then some (k + 1, q) else (copy q (k + 1) k).bind (sink w k)

structure Found where
  index : Nat
  slots : Slots
  done : Bool

def search (timerNumber : Int) (w : Wake) (timeOuts : Nat) : Nat → Slots → Option Found
  | 0, q => some ⟨0, q, false⟩
  | k + 1, q =>
    if epochAfter w (q k).wake then some ⟨k + 1, q, false⟩
    else if (q k).timerNumber = timerNumber then
      (closeGap k (timeOuts - 1 - k) q).bind fun q =>
        (sink w k q).map fun r => ⟨r.1, r.2, true⟩
    else (copy q (k + 1) k).bind (search timerNumber w timeOuts k)

def dropOld (timerNumber : Int) (timeOuts : Nat) : Nat → Slots → Option (Slots × Nat)
  | 0, q => some (q, timeOuts)
  | k + 1, q =>
    if (q k).timerNumber = timerNumber then
      (closeGap k (timeOuts - 1 - k) q).map fun q => (q, timeOuts - 1)
    else dropOld timerNumber timeOuts k q

structure Timers where
  timeOut : Slots
  timeOuts : Int
  epoch : Word
  timeOutValue : Word
  waitingForEpoch : Bool

def start : Timers := ⟨fun _ => .zero, 0, 0, 0, false⟩

def setTimeOutValue (s : Timers) : Timers :=
  if (s.timeOut 0).wake.epoch ≠ s.epoch then
    { s with waitingForEpoch := true, timeOutValue := (s.epoch + 1) <<< epochBit }
  else { s with waitingForEpoch := false, timeOutValue := (s.timeOut 0).wake.time }

-- The epoch at a time, as far as its two low bits tell.
def epochAt (epoch now : Word) : Word :=
  if epoch &&& 3 ≠ now >>> epochBit then epoch + 1 else epoch

structure Delay where
  secsDelay : Word
  tenNSDelay : Word
  fuzz : Word
  deriving DecidableEq

-- mac
def mac (a b c d : Word) : BitVec 64 :=
  a.zeroExtend 64 * b.zeroExtend 64 + (c ++ d : BitVec 64)

def high (x : BitVec 64) : Word := (x >>> 32).truncate 32

def low (x : BitVec 64) : Word := x.truncate 32

def wakeTime (epoch now : Word) (d : Delay) : BitVec 64 :=
  let x := mac 100000000 d.secsDelay (epochAt epoch now >>> (32 - epochBit))
    (d.tenNSDelay + (now &&& d.fuzz))
  mac 1 now (high x) (low x)

theorem window_wakeTime (x : BitVec 64) :
    low x >>> 30 = (high x <<< 2 ||| low x >>> 30) &&& 3 := by
  have hmask : ∀ i < 32, (3 : Word).getLsbD i = decide (i < 2) := by decide
  apply BitVec.eq_of_getLsbD_eq
  intro i hi
  simp only [BitVec.getLsbD_and, BitVec.getLsbD_or, BitVec.getLsbD_ushiftRight,
    BitVec.getLsbD_shiftLeft, hmask i hi]
  by_cases h : i < 2
  · simp [h]
  · simp only [h, decide_false, Bool.and_false]
    exact BitVec.getLsbD_of_ge _ _ (by omega)

def wakeUp (epoch now : Word) (d : Delay) : Wake :=
  let x := wakeTime epoch now d
  ⟨high x <<< (32 - epochBit) ||| low x >>> epochBit, low x, window_wakeTime x⟩

def pipSetTimeOut (timerNumber : Int) (d : Delay) (now : Word) (s : Timers) : Option Timers := do
  if s.timeOuts < 0 then none
  let w := wakeUp s.epoch now d
  let timeOuts := s.timeOuts.toNat
  let f ← search timerNumber w timeOuts timeOuts s.timeOut
  let q ← put f.slots f.index ⟨timerNumber, w⟩
  if f.done then return { s with timeOut := q }
  let r ← dropOld timerNumber (timeOuts + 1) f.index q
  return setTimeOutValue { s with timeOut := r.1, timeOuts := r.2 }

def resetLoop (timerNumber : Int) (timeOuts i : Nat) (q : Slots) : Nat → Option (Option Slots)
  | 0 => some none
  | n + 1 =>
    if (q i).timerNumber = timerNumber then (closeGap i (timeOuts - 1 - i) q).map some
    else resetLoop timerNumber timeOuts (i + 1) q n

def pipResetTimeOut (timerNumber : Int) (s : Timers) : Option Timers := do
  match ← resetLoop timerNumber s.timeOuts.toNat 0 s.timeOut s.timeOuts.toNat with
  | some q => return { s with timeOut := q, timeOuts := s.timeOuts - 1 }
  | none => return setTimeOutValue s

-- Up to the call of the handler, and the timer that it is for.
def numberZeroTimedOut (s : Timers) : Option (Int × Timers) :=
  (closeGap 0 (s.timeOuts - 1).toNat s.timeOut).map fun q =>
    ((s.timeOut 0).timerNumber, { s with timeOut := q, timeOuts := s.timeOuts - 1 })

end Xtcp.Pip

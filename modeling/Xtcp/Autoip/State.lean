import Xtcp.Channel.Command
import Xtcp.Uip.Timer
import Mathlib.Algebra.Ring.Nat

namespace Xtcp.Autoip
open Channel Timer

-- The fields of autoip_arp_pkt that are filled in.
structure ArpHdr where
  shwaddr : MacAddr
  sipaddr : Ipaddr
  dipaddr : Ipaddr
  deriving DecidableEq, Repr

def probeWait : Word := 1
def probeNum : Nat := 3
def probeMin : Word := 1
def probeMax : Word := 2
def announceWait : Word := 2
def announceNum : Nat := 2
def announceInterval : Word := 2
def maxConflicts : Nat := 10
def rateLimitInterval : Word := 60

inductive MachineState where
  | disabled
  | noAddress
  | waitForProbe
  | probing
  | waitForAnnounce
  | announcing
  | configured
  deriving DecidableEq, Repr

structure AutoipState where
  state : MachineState
  probesSent : Nat
  announcesSent : Nat
  numConflicts : Nat
  limitRate : Bool
  rand : Word
  seed : Word
  timer : UipTimer
  ipaddr : Ipaddr
  deriving DecidableEq, Repr

-- heard: the sender address of a packet that autoip_arp_in is given.
inductive Note where
  | chose (a : Ipaddr)
  | built (p : ArpHdr)
  | heard (a : Ipaddr)
  | configured (a : Ipaddr)
  deriving DecidableEq, Repr

abbrev Result := Option (AutoipState × List Note)

-- A counter is an int: an increment beyond its range has no result.
def increment (n : Nat) : Option Nat := if n + 1 < 2 ^ 31 then some (n + 1) else none

def autoipInit (seed : Word) (s : AutoipState) : AutoipState :=
  { s with
    state := .disabled
    probesSent := 0
    announcesSent := 0
    numConflicts := 0
    limitRate := false
    seed := seed
    rand := seed }

def rand (s : AutoipState) : AutoipState := { s with rand := 1013904223 + 1664525 * s.rand }

def randomTimerSet (now a b : Word) (s : AutoipState) : AutoipState :=
  let s := rand s
  let x := (s.rand * (b - a)).zeroExtend 64 >>> 32
  { s with timer := timerSet now (a + x.truncate 32) }

section Packets

variable (ethaddr : MacAddr)

def createArpPacket : ArpHdr := ⟨ethaddr, ⟨0, 0, 0, 0⟩, ⟨0, 0, 0, 0⟩⟩

def probe (a : Ipaddr) : ArpHdr := { createArpPacket ethaddr with dipaddr := a }

def announcement (a : Ipaddr) : ArpHdr := { createArpPacket ethaddr with dipaddr := a, sipaddr := a }

-- now: the clock when a timer is tested, set: when it is set.
variable (now set : Word)

def sendProbe (s : AutoipState) : Result := do
  let n ← increment s.probesSent
  let s := randomTimerSet set (probeMin * clockSecond) (probeMax * clockSecond)
    { s with probesSent := n }
  return (s, [.built (probe ethaddr s.ipaddr)])

def sendAnnounce (s : AutoipState) : Result := do
  let n ← increment s.announcesSent
  return ({ s with announcesSent := n, timer := timerSet set (announceInterval * clockSecond) },
    [.built (announcement ethaddr s.ipaddr)])

def chooseAddress (s : AutoipState) : AutoipState × List Note :=
  let s := rand s
  let r1 := s.rand &&& 0xff
  let r2 := (s.rand &&& 0xff00) >>> 8
  let a : Ipaddr := ⟨169, 254, UInt8.ofNat r1.toNat, UInt8.ofNat r2.toNat⟩
  (randomTimerSet set 0 (probeWait * clockSecond) { s with ipaddr := a, state := .waitForProbe },
    [.chose a])

def giveUp (s : AutoipState) : AutoipState :=
  { s with
    state := .noAddress
    probesSent := 0
    announcesSent := 0
    numConflicts := 0
    limitRate := s.limitRate || maxConflicts < 0
    timer := timerSet set (rateLimitInterval * clockSecond) }

def autoipPeriodic (s : AutoipState) : Result :=
  match s.state with
  | .disabled => some (s, [])
  | .noAddress =>
    if !s.limitRate || timerExpired now s.timer then some (chooseAddress set s) else some (s, [])
  | .waitForProbe =>
    if timerExpired now s.timer then sendProbe ethaddr set { s with state := .probing }
    else some (s, [])
  | .probing =>
    if timerExpired now s.timer then
      if s.probesSent = probeNum then
        some ({ s with
          state := .waitForAnnounce
          timer := timerSet set (announceWait * clockSecond) }, [])
      else sendProbe ethaddr set s
    else some (s, [])
  | .waitForAnnounce =>
    if timerExpired now s.timer then
      if s.numConflicts = 0 then sendAnnounce ethaddr set { s with state := .announcing }
      else some (giveUp set s, [])
    else some (s, [])
  | .announcing => do
    let r ← sendAnnounce ethaddr set s
    if r.1.announcesSent = announceNum then
      return ({ r.1 with state := .configured }, r.2 ++ [.configured r.1.ipaddr])
    else return r
  | .configured => some (s, [])

end Packets

def listening : MachineState → Bool
  | .waitForProbe => true
  | .probing => true
  | .waitForAnnounce => true
  | _ => false

def autoipArpIn (sipaddr : Ipaddr) (s : AutoipState) : Result :=
  if listening s.state ∧ sipaddr = s.ipaddr then
    (increment s.numConflicts).map fun n => ({ s with numConflicts := n }, [.heard sipaddr])
  else some (s, [.heard sipaddr])

def autoipStart (s : AutoipState) : AutoipState :=
  if s.state = .disabled then { rand (autoipInit s.seed s) with state := .noAddress } else s

def autoipStop (s : AutoipState) : AutoipState := { s with state := .disabled }

inductive Event where
  | start
  | stop
  | periodic (now set : Word)
  | arpIn (sipaddr : Ipaddr)
  deriving DecidableEq, Repr

def step (ethaddr : MacAddr) : Event → AutoipState → Result
  | .start, s => some (autoipStart s, [])
  | .stop, s => some (autoipStop s, [])
  | .periodic now set, s => autoipPeriodic ethaddr now set s
  | .arpIn sipaddr, s => autoipArpIn sipaddr s

end Xtcp.Autoip

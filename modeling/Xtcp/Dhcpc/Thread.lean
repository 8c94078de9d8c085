import Xtcp.Dhcpc.Message
import Xtcp.Uip.Timer

namespace Xtcp.Dhcpc

open Channel Timer

inductive State where
  | initial
  | sending
  | offerReceived
  | configReceived
  | disabled
  deriving DecidableEq, Repr

-- Where the thread yields.
inductive Pt where
  | init
  | initwait
  | discovering
  | selecting
  | bound
  | renewing
  deriving DecidableEq, Repr

structure DhcpcState extends Lease where
  pt : Pt
  state : State
  timer : UipTimer
  ticks : Word
  macAddr : MacAddr
  deriving DecidableEq, Repr

-- took: a message of the type that the thread is waiting for.
inductive Note where
  | started
  | stopped
  | discover (m : List UInt8)
  | request (m : List UInt8)
  | autoipStart
  | took (type : UInt8) (d : Datagram)
  | configured (l : Lease)

-- now: the clock when the timer is tested, set: when it is set.
structure Input where
  now : Word
  set : Word
  rand : Nat
  newdata : Option Datagram
  hostaddr : Ipaddr

def maxTicks : Word := 0x7fffffff
def maxTicks32 : Word := 0xffffffff

-- 65536ul and CLOCK_SECOND make the product unsigned.
def leaseTicks (l : Lease) : Word :=
  let half := (l.leaseTime0.zeroExtend 32 * 65536 + l.leaseTime1.zeroExtend 32) * clockSecond / 2
  if half ≤ maxTicks32 then half else maxTicks32

def imin (a b : Word) : Word := if a < b then a else b

def zeroIpaddr : Ipaddr := ⟨0, 0, 0, 0⟩

abbrev Result := DhcpcState × List Note

section Thread

variable (useAutoip : Bool) (i : Input)

def ciaddr (s : DhcpcState) : Ipaddr :=
  if s.state ≠ .configReceived then zeroIpaddr else i.hostaddr

def initwait (s : DhcpcState) : Result :=
  let ticks := BitVec.ofNat 32 (i.rand % 8192)
  ({ s with pt := .initwait, ticks := ticks, timer := timerSet i.set ticks }, [])

def discover (s : DhcpcState) : Result :=
  ({ s with pt := .discovering, timer := timerSet i.set s.ticks },
    [.discover (sendDiscover s.macAddr (ciaddr i s))])

def init (s : DhcpcState) : Result := discover i { s with state := .sending, ticks := clockSecond }

def rediscover (s : DhcpcState) : Result :=
  let notes := if useAutoip ∧ s.ticks = clockSecond * 4 then [.autoipStart] else []
  let s := if s.ticks < clockSecond * 60 then { s with ticks := s.ticks * 2 } else s
  let r := discover i s
  (r.1, notes ++ r.2)

def request (s : DhcpcState) : Result :=
  ({ s with pt := .selecting, timer := timerSet i.set s.ticks },
    [.request (sendRequest s.macAddr (ciaddr i s) s.toLease)])

def renew (s : DhcpcState) : Result :=
  let ticks := imin (s.ticks / 2) maxTicks
  ({ s with pt := .renewing, ticks := s.ticks - ticks, timer := timerSet i.set ticks },
    [.request (sendRequest s.macAddr (ciaddr i s) s.toLease)])

-- The test of the loop that waits for half of the lease time.
def boundWait (s : DhcpcState) : Result :=
  if 0 < s.ticks then
    let ticks := imin s.ticks maxTicks
    ({ s with pt := .bound, ticks := s.ticks - ticks, timer := timerSet i.set ticks }, [])
  else renew i { s with ticks := leaseTicks s.toLease }

-- dhcpc_configured sets the host's address.
def bound (s : DhcpcState) : Result :=
  let r := boundWait { i with hostaddr := s.ipaddr } { s with ticks := leaseTicks s.toLease }
  (r.1, .configured s.toLease :: r.2)

def rerequest (s : DhcpcState) : Result :=
  if s.ticks ≤ clockSecond * 10 then
    let s := { s with ticks := s.ticks + clockSecond }
    if s.state ≠ .configReceived then request i s else bound i s
  else init i s

def rerenew (s : DhcpcState) : Result := if clockSecond * 3 ≤ s.ticks then renew i s else init i s

-- parse_msg copies from the datagram that msg_for_me has found good.
def take (type : UInt8) (d : Datagram) (s : DhcpcState) : DhcpcState × Note :=
  ({ s with toLease := (parseMsg s.macAddr d s.toLease).2 }, .took type d)

def offered (d : Datagram) (s : DhcpcState) : Result :=
  let r := take dhcpOffer d s
  let q := request i { r.1 with state := .offerReceived, ticks := clockSecond }
  (q.1, r.2 :: q.2)

def acked (d : Datagram) (s : DhcpcState) : Result :=
  let r := take dhcpAck d s
  let q := bound i { r.1 with state := .configReceived }
  (q.1, r.2 :: q.2)

def reacked (d : Datagram) (s : DhcpcState) : Result :=
  let r := take dhcpAck d s
  let q := bound i r.1
  (q.1, r.2 :: q.2)

def afterNak (d : Datagram) (r : Result) : Result := (r.1, .took dhcpNak d :: r.2)

-- What uip_newdata() brings that is for the client.
def news (s : DhcpcState) : Option (UInt8 × Datagram) :=
  i.newdata.bind fun d => (msgForMe s.macAddr d).map fun type => (type, d)

def whenExpired (s : DhcpcState) (next : Result) : Result :=
  if timerExpired i.now s.timer then next else (s, [])

def handleDhcp (s : DhcpcState) : Result :=
  match s.pt with
  | .init => if s.state = .disabled then (s, []) else initwait i s
  | .initwait => whenExpired i s (init i s)
  | .discovering =>
    match news i s with
    | some (type, d) =>
      if type = dhcpOffer then offered i d s else whenExpired i s (rediscover useAutoip i s)
    | none => whenExpired i s (rediscover useAutoip i s)
  | .selecting =>
    match news i s with
    | some (type, d) =>
      if type = dhcpAck then acked i d s
      else if type = dhcpNak then afterNak d (initwait i s)
      else whenExpired i s (rerequest i s)
    | none => whenExpired i s (rerequest i s)
  | .bound => whenExpired i s (boundWait i s)
  | .renewing =>
    match news i s with
    | some (type, d) =>
      if type = dhcpAck then reacked i d s
      else if type = dhcpNak then afterNak d (init i s)
      else whenExpired i s (rerenew i s)
    | none => whenExpired i s (rerenew i s)

end Thread

def dhcpcStart (s : DhcpcState) : DhcpcState := { s with state := .initial, pt := .init }

def dhcpcStop (s : DhcpcState) : DhcpcState := { s with state := .disabled, pt := .init }

def dhcpcInit (macAddr : MacAddr) (s : DhcpcState) : DhcpcState :=
  { s with macAddr := macAddr, state := .disabled, pt := .init }

inductive Event where
  | start
  | stop
  | appcall (i : Input)

def step (useAutoip : Bool) (s : DhcpcState) : Event → Result
  | .start => (dhcpcStart s, [.started])
  | .stop => (dhcpcStop s, [.stopped])
  | .appcall i => handleDhcp useAutoip i s

def run (useAutoip : Bool) (s : DhcpcState) (es : List Event) : Result :=
  es.foldl (fun r e => let q := step useAutoip r.1 e; (q.1, r.2 ++ q.2)) (s, [])

theorem run_append (useAutoip : Bool) (s : DhcpcState) (es es' : List Event) :
    run useAutoip s (es ++ es') =
      ((run useAutoip (run useAutoip s es).1 es').1,
        (run useAutoip s es).2 ++ (run useAutoip (run useAutoip s es).1 es').2) := by
  have hfrom : ∀ (es : List Event) (r : Result),
      es.foldl (fun r e => let q := step useAutoip r.1 e; (q.1, r.2 ++ q.2)) r =
        ((run useAutoip r.1 es).1, r.2 ++ (run useAutoip r.1 es).2) := by
    intro es
    induction es with
    | nil =>
      intro r
      exact congrArg (Prod.mk r.1) (List.append_nil r.2).symm
    | cons e es ih =>
      intro r
      rw [run, List.foldl_cons, List.foldl_cons, ih, ih]
      exact congrArg (Prod.mk _) (by simp)
  rw [run, List.foldl_append]
  exact hfrom es' _

theorem run_concat (useAutoip : Bool) (s : DhcpcState) (es : List Event) (e : Event) :
    run useAutoip s (es ++ [e]) =
      ((step useAutoip (run useAutoip s es).1 e).1,
        (run useAutoip s es).2 ++ (step useAutoip (run useAutoip s es).1 e).2) := by
  rw [run, List.foldl_concat]
  rfl

end Xtcp.Dhcpc

import Mathlib.Logic.Function.Basic
import Mathlib.Data.List.FinRange
import Xtcp.Listen.Tables
import Xtcp.Channel.Command

namespace Xtcp.Uip
open Channel Listen

inductive TcpState where
  | closed
  | synRcvd
  | synSent
  | established
  | finWait1
  | finWait2
  | closing
  | timeWait
  | lastAck
  deriving DecidableEq, Repr

-- tcpstateflags: the state under UIP_TS_MASK and the UIP_STOPPED bit.
structure TcpFlags where
  state : TcpState
  stopped : Bool
  deriving DecidableEq, Repr

structure TcpConn where
  ripaddr : Ipaddr
  lport : Nat
  rport : Nat
  rcvNxt : BitVec 32
  sndNxt : BitVec 32
  len : Nat
  mss : Nat
  initialmss : Nat
  sa : BitVec 8
  sv : BitVec 8
  rto : BitVec 8
  tcpstateflags : TcpFlags
  timer : BitVec 8
  nrtx : BitVec 8
  deriving DecidableEq, Repr

structure UdpConn where
  ripaddr : Ipaddr
  lport : Nat
  rport : Nat
  udpSent : Bool
  udpPendingArp : Bool
  deriving DecidableEq, Repr

inductive Slot (nT nU : Nat) where
  | tcp (i : Fin nT)
  | udp (i : Fin nU)
  deriving DecidableEq, Repr

structure ServerState (nT nU : Nat) where
  sendRequest : Nat
  abortRequest : Bool
  closeRequest : Bool
  pollInterval : Nat
  connectRequest : Bool
  ackRequest : Bool
  closed : Bool
  uipConn : Option (Slot nT nU)
  ackRecvMode : Bool
  deriving DecidableEq, Repr

-- linknum is none for the -1 of get_listener_linknum.
structure Xtcpd (nT nU : Nat) where
  linknum : Option Nat
  conn : Conn
  s : ServerState nT nU
  deriving DecidableEq, Repr

inductive XtcpEvent where
  | newConnection
  | recvData
  | pushData
  | requestData
  | sentData
  | resendData
  | timedOut
  | aborted
  | closed
  | poll
  deriving DecidableEq, Repr

structure Flags where
  ackdata : Bool
  newdata : Bool
  rexmit : Bool
  poll : Bool
  close : Bool
  abort : Bool
  connected : Bool
  timedout : Bool
  push : Bool
  deriving DecidableEq, Repr

def Flags.none : Flags := ⟨false, false, false, false, false, false, false, false, false⟩

structure ArpEntry where
  ipaddr : Ipaddr
  ethaddr : MacAddr
  time : BitVec 8
  deriving DecidableEq, Repr

structure Arp where
  table : List ArpEntry
  arptime : BitVec 8
  hostaddr : Ipaddr
  netmask : Ipaddr
  draddr : Ipaddr
  deriving DecidableEq, Repr

structure Config where
  tcpMss : Nat
  clientBufSize : Nat
  receiveWindow : Nat
  pushNotification : Bool
  acceptAfterPause : Bool
  deriving DecidableEq, Repr

-- What the clients and the clock will answer: the commands serviced in each wait, the ready
-- flags of do_recv, the lengths given to xtcpd_send and dhcpc_appcall, and timer_expired.
structure Env where
  waits : List (List (Nat × Command))
  ready : List Bool
  lens : List Nat
  expired : List Bool
  deriving DecidableEq, Repr

inductive Origin where
  | active (linknum : Nat)
  | passive (lport : Nat)
  deriving DecidableEq, Repr

-- A wait in xtcpd_service_clients_until_ready: for which event, on which link.
structure Wait (nT nU : Nat) where
  slot : Slot nT nU
  event : XtcpEvent
  ready : Option Nat
  deriving DecidableEq, Repr

-- pending: the flag of the UDP slot was set already. client: the datagram is not one of DHCP's.
inductive Entry (nT nU : Nat) where
  | opened (slot : Slot nT nU) (origin : Origin) (connectRequest : Bool)
      (during : Option (Wait nT nU))
  | killed (slot : Slot nT nU) (state : TcpState)
  | issued (slot : Slot nT nU) (id : Nat)
  | sent (slot : Slot nT nU) (event : XtcpEvent) (ready link : Option Nat) (conn : Conn)
      (origin : Option Origin) (owner : Option Nat) (connectRequest : Bool)
  | bound (slot : Slot nT nU) (old new : Nat)
  | paused (slot : Slot nT nU)
  | cleared (slot : Slot nT nU) (pending : Bool)
  | transmitted (slot : Slot nT nU) (client pending : Bool)
  | replaced (slot : Slot nT nU) (client pending : Bool)
  deriving DecidableEq, Repr

structure Segment where
  srcipaddr : Ipaddr
  srcport : Nat
  destport : Nat
  seqno : BitVec 32
  ackno : BitVec 32
  fin : Bool
  syn : Bool
  rst : Bool
  psh : Bool
  ack : Bool
  urg : Bool
  wnd : Nat
  urgp : Nat
  len : Nat
  mssOption : Option Nat
  deriving DecidableEq, Repr

structure Stack (nT nU : Nat) where
  tcp : Fin nT → TcpConn
  udp : Fin nU → UdpConn
  app : Slot nT nU → Xtcpd nT nU
  tables : Tables
  guid : Nat
  lastport : Nat
  iss : BitVec 32
  uipFlags : Flags
  uipLen : Nat
  uipSlen : Nat
  srcipaddr : Ipaddr
  srcport : Nat
  arp : Arp
  wire : List Segment
  env : Env
  fault : Bool
  raising : Option (Wait nT nU)
  origin : Slot nT nU → Option Origin
  owner : Slot nT nU → Option Nat
  log : List (Entry nT nU)

variable {nT nU : Nat}

def Stack.setTcp (w : Stack nT nU) (i : Fin nT) (f : TcpConn → TcpConn) : Stack nT nU :=
  { w with tcp := Function.update w.tcp i (f (w.tcp i)) }

def Stack.setUdp (w : Stack nT nU) (i : Fin nU) (f : UdpConn → UdpConn) : Stack nT nU :=
  { w with udp := Function.update w.udp i (f (w.udp i)) }

def Stack.setApp (w : Stack nT nU) (slot : Slot nT nU) (f : Xtcpd nT nU → Xtcpd nT nU) :
    Stack nT nU :=
  { w with app := Function.update w.app slot (f (w.app slot)) }

def Stack.setS (w : Stack nT nU) (slot : Slot nT nU)
    (f : ServerState nT nU → ServerState nT nU) : Stack nT nU :=
  w.setApp slot fun x => { x with s := f x.s }

def Stack.setConn (w : Stack nT nU) (slot : Slot nT nU) (f : Conn → Conn) : Stack nT nU :=
  w.setApp slot fun x => { x with conn := f x.conn }

def Stack.setState (w : Stack nT nU) (i : Fin nT) (st : TcpState) : Stack nT nU :=
  w.setTcp i fun c => { c with tcpstateflags := ⟨st, false⟩ }

def Stack.note (w : Stack nT nU) (e : Entry nT nU) : Stack nT nU := { w with log := w.log ++ [e] }

def Slot.all (nT nU : Nat) : List (Slot nT nU) :=
  (List.range (max nT nU)).flatMap fun i =>
    (if h : i < nT then [.tcp ⟨i, h⟩] else []) ++ (if h : i < nU then [.udp ⟨i, h⟩] else [])

def zeroConn : Conn := ⟨0, 0, 0, 0, 0, 0, 0, 0, 0⟩

def ServerState.zero : ServerState nT nU :=
  ⟨0, false, false, 0, false, false, false, none, false⟩

def Xtcpd.zero : Xtcpd nT nU := ⟨some 0, zeroConn, .zero⟩

def zeroIpaddr : Ipaddr := ⟨0, 0, 0, 0⟩

def ipaddrWord (a : Ipaddr) : Nat :=
  a.b0.toNat + 256 * a.b1.toNat + 65536 * a.b2.toNat + 16777216 * a.b3.toNat

def TcpConn.zero : TcpConn :=
  ⟨zeroIpaddr, 0, 0, 0, 0, 0, 0, 0, 0, 0, 0, ⟨.closed, false⟩, 0, 0⟩

def UdpConn.zero : UdpConn := ⟨zeroIpaddr, 0, 0, false, false⟩

theorem Slot.mem_all (slot : Slot nT nU) : slot ∈ Slot.all nT nU := by
  simp only [Slot.all, List.mem_flatMap, List.mem_range, List.mem_append]
  cases slot with
  | tcp i => exact ⟨i.val, by omega, Or.inl (by simp [i.isLt])⟩
  | udp i => exact ⟨i.val, by omega, Or.inr (by simp [i.isLt])⟩

end Xtcp.Uip

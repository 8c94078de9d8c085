import Xtcp.Channel.Command
import Xtcp.Uip.Timer
import Mathlib.Algebra.Ring.Nat

namespace Xtcp.Igmp
open Channel Timer

def unsolicitedReportInterval : Word := 10

def maxIgmpGroups : Nat := 10

def igmpMembershipQuery : UInt8 := 0x11
def igmpMembershipReport : UInt8 := 0x16
def igmpLeaveGroupMsg : UInt8 := 0x17

inductive IgmpState where
  | nonMember
  | pendingJoin
  | delayedMember
  | idleMember
  | pendingLeave
  deriving DecidableEq, Repr

structure IgmpGroupState where
  state : IgmpState
  addr : Ipaddr
  flag : Bool
  timer : UipTimer
  deriving DecidableEq, Repr

abbrev Groups := List IgmpGroupState

-- The two halves of an address as the processor reads them.
def half0 (a : Ipaddr) : Nat := a.b0.toNat + 256 * a.b1.toNat
def half1 (a : Ipaddr) : Nat := a.b2.toNat + 256 * a.b3.toNat

def allgroupsIpaddr : Ipaddr := ⟨224, 0, 0, 1⟩
def leavegroupIpaddr : Ipaddr := ⟨224, 0, 0, 2⟩

structure IgmpMsg where
  msgtype : UInt8
  maxResponse : UInt8
  checksum : Fin (2 ^ 16)
  addr : Ipaddr
  deriving DecidableEq, Repr

-- processed: igmp_group_periodic has taken up a pending join.
inductive Note where
  | joined (a : Ipaddr)
  | processed (a : Ipaddr)
  | left (a : Ipaddr)
  | built (msgtype : UInt8) (dest group : Ipaddr)
  deriving DecidableEq, Repr

-- The Ethernet header, the IP header with its options and the message.
def igmpMsgLen : Nat := 34 + 4 + 8

def igmpInit (groups : Groups) : Groups := groups.map fun g => { g with state := .nonMember }

def sendMembershipReport (g : IgmpGroupState) : Note := .built igmpMembershipReport g.addr g.addr

def sendLeaveGroup (g : IgmpGroupState) : Note :=
  .built igmpLeaveGroupMsg leavegroupIpaddr g.addr

-- The entry, uip_len and what was noted.
def igmpGroupPeriodic (now : Word) (uipLen : Nat) (g : IgmpGroupState) :
    IgmpGroupState × Nat × List Note :=
  match g.state with
  | .nonMember | .idleMember => (g, uipLen, [])
  | .pendingJoin =>
    ({ g with
      flag := true
      state := .delayedMember
      timer := timerSet now (unsolicitedReportInterval * clockSecond) },
      igmpMsgLen, [.processed g.addr, sendMembershipReport g])
  | .delayedMember =>
    if timerExpired now g.timer then
      ({ g with flag := true, state := .idleMember }, igmpMsgLen, [sendMembershipReport g])
    else (g, uipLen, [])
  | .pendingLeave =>
    let g' := { g with state := .nonMember }
    if g.flag then (g', igmpMsgLen, [sendLeaveGroup g]) else (g', uipLen, [])

-- clock: its reading at each entry.
def igmpPeriodic (clock : Nat → Word) : Nat → Nat → Groups → Groups × List Note
  | _, _, [] => ([], [])
  | i, uipLen, g :: gs =>
    let (g, uipLen, new) := igmpGroupPeriodic (clock i) uipLen g
    if 0 < uipLen then (g :: gs, new)
    else
      let (gs, more) := igmpPeriodic clock (i + 1) uipLen gs
      (g :: gs, new ++ more)

-- The complement is taken of an int: it is negative.
def igmpChecksumValid (m : IgmpMsg) : Bool :=
  let chksum : Nat :=
    (m.maxResponse.toNat * 256 + m.msgtype.toNat + half0 m.addr + half1 m.addr) % 2 ^ 16
  (m.checksum.val : Int) == -(chksum : Int) - 1

def queried (clock : Nat → Word) (m : IgmpMsg) (i : Nat) (g : IgmpGroupState) : IgmpGroupState :=
  let toAllGroups := m.addr == allgroupsIpaddr
  if (g.state = .idleMember ∨ g.state = .delayedMember) ∧ (toAllGroups ∨ m.addr = g.addr) then
    { g with
      state := .delayedMember
      timer := timerSet (clock i) (BitVec.ofNat 32 (m.maxResponse >>> 5).toNat * clockSecond) }
  else g

def reported (m : IgmpMsg) (g : IgmpGroupState) : IgmpGroupState :=
  if g.state = .delayedMember ∧ m.addr = g.addr then { g with state := .idleMember, flag := false }
  else g

def igmpIn (clock : Nat → Word) (m : IgmpMsg) (groups : Groups) : Groups :=
  if m.msgtype = igmpMembershipQuery then
    if igmpChecksumValid m then groups.mapIdx (queried clock m) else groups
  else if m.msgtype = igmpMembershipReport then
    if igmpChecksumValid m then groups.map (reported m) else groups
  else groups

def igmpJoinGroup (addr : Ipaddr) : Groups → Groups
  | [] => []
  | g :: gs =>
    if g.state = .nonMember then { g with addr := addr, state := .pendingJoin } :: gs
    else g :: igmpJoinGroup addr gs

def matched (addr : Ipaddr) (g : IgmpGroupState) : Bool :=
  g.state = .idleMember || g.state = .delayedMember && addr == g.addr

def igmpLeaveGroup (addr : Ipaddr) (groups : Groups) : Groups :=
  groups.map fun g => if matched addr g then { g with state := .pendingLeave } else g

def igmpCheckAddr (addr : Ipaddr) (groups : Groups) : Nat :=
  if groups.any (matched addr) then 1 else 0

inductive Event where
  | joinGroup (addr : Ipaddr)
  | leaveGroup (addr : Ipaddr)
  | incoming (clock : Nat → Word) (m : IgmpMsg)
  | periodic (clock : Nat → Word) (uipLen : Nat)

def step (groups : Groups) : Event → Groups × List Note
  | .joinGroup a => (igmpJoinGroup a groups, [.joined a])
  | .leaveGroup a => (igmpLeaveGroup a groups, [.left a])
  | .incoming clock m => (igmpIn clock m groups, [])
  | .periodic clock uipLen => igmpPeriodic clock 0 uipLen groups

end Xtcp.Igmp

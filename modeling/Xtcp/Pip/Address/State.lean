import Xtcp.Library.Halfword
import Xtcp.Pip.Timer

namespace Xtcp.Pip.Address

open Halfword

abbrev Mac := List (BitVec 8)

def macAt (bytes : Bytes) (offset : Nat) : Mac := (List.range 6).map fun i => bytes (offset + i)

def broadcast : Mac := List.replicate 6 0xff

def noMac : Mac := List.replicate 6 0

structure Config where
  linkLocal : Bool
  dhcp : Bool
  dontWait : Bool
  gateway : Bool
  myMacAddress : Bytes

def Config.mac (cfg : Config) : Mac := macAt cfg.myMacAddress 0

inductive Timer where
  | dhcpT1
  | dhcpT2
  | arp
  | linkLocal
  deriving DecidableEq

inductive LinkState where
  | waiting
  | probedOnce
  | probedTwice
  | probedThrice
  | announcedOnce
  | announcedTwice
  | gotIt
  deriving DecidableEq

inductive DhcpState where
  | blank
  | inited
  | allocated
  deriving DecidableEq

structure Entry where
  ipAddress : Word
  macAddr : Mac
  valid : BitVec 8
  age : BitVec 8

structure ArpPacket where
  oper : BitVec 16
  sha : Mac
  spa : Word
  tpa : Word
  deriving DecidableEq

structure ArpMessage where
  reply : Bool
  sha : Mac
  spa : Word
  tha : Mac
  tpa : Word
  dest : Mac
  deriving DecidableEq

structure DhcpMessage where
  firstMessage : Bool
  xid : Word
  proposedIP : Word
  serverIP : Word
  deriving DecidableEq

structure Lease where
  xid : Word
  myIP : Word
  mySubnetIP : Word
  myRouterIP : Word
  rebind : Nat
  deriving DecidableEq

-- claimed: myIP is set by pipTimeOutLinkLocal. dropped: it is no longer what it was set to.
inductive Note where
  | heard (p : ArpPacket)
  | builtARP (m : ArpMessage)
  | builtDHCP (m : DhcpMessage)
  | chose (r : Word)
  | claimed (r : Word)
  | leased (lease : Lease)
  | dropped
  deriving DecidableEq

-- now counts the ticks of 10 ns. timeOut: when an armed timer is due.
structure Host where
  now : Nat
  myIP : Word
  mySubnetIP : Word
  myRouterIP : Word
  random : Word
  randomIPAddress : Word
  linkState : LinkState
  conflicts : Nat
  dhcpState : DhcpState
  serverIP : Word
  xid : Word
  interval : Nat
  pipArpTable : Nat → Entry
  timeOut : Timer → Option Nat
  log : List Note

def Host.note (s : Host) (notes : List Note) : Host := { s with log := s.log ++ notes }

def fuzz1s : Nat := 0x07FFFFFF

def fuzz10s : Nat := 0x3FFFFFFF

def wakeUp (now secsDelay tenNSDelay fuzz : Nat) : Nat :=
  now + 100000000 * secsDelay + tenNSDelay + (now % 2 ^ 32 &&& fuzz)

def pipSetTimeOut (timer : Timer) (secsDelay tenNSDelay fuzz : Nat) (s : Host) : Host :=
  { s with
    timeOut := Function.update s.timeOut timer (some (wakeUp s.now secsDelay tenNSDelay fuzz)) }

def pipResetTimeOut (timer : Timer) (s : Host) : Host :=
  { s with timeOut := Function.update s.timeOut timer none }

def pipAssignIPv4 (proposedIP subnet router : Word) (s : Host) : Host :=
  { s with myIP := proposedIP, mySubnetIP := subnet, myRouterIP := router }

def pipUnassignIPv4 (s : Host) : Host :=
  { s.note [.dropped] with myIP := 0, mySubnetIP := 0, myRouterIP := 0 }

def arpEntries : Nat := 10

def pipInitARP (s : Host) : Host := pipSetTimeOut .arp 1 0 0 s

def arpSlot (table : Nat → Entry) (ipAddress : Word) : Nat :=
  let slots := List.range' 1 (arpEntries - 1)
  match slots.find? fun i => (table i).ipAddress = ipAddress with
  | some i => i
  | none => slots.foldl (fun m i => if (table i).age < (table m).age then i else m) 1

def pipARPStoreEntry (ipAddress : Word) (macAddress : Mac) (s : Host) : Host :=
  { s with
    pipArpTable := Function.update s.pipArpTable (arpSlot s.pipArpTable ipAddress)
      ⟨ipAddress, macAddress, 1, 0xfe⟩ }

-- Without a target address (offset -1) the message is for everyone.
def pipCreateARP (cfg : Config) (reply : Bool) (tpa : Word) (tha : Option Mac) (s : Host) : Host :=
  s.note [.builtARP ⟨reply, cfg.mac, s.myIP, tha.getD noMac, tpa, tha.getD broadcast⟩]

def pipTimeOutARP (s : Host) : Host :=
  pipSetTimeOut .arp 1 0 0 { s with
    pipArpTable := fun i =>
      let e := s.pipArpTable i
      if 1 ≤ i ∧ i < arpEntries then
        if 0 < e.age then { e with age := e.age - 1 } else { e with valid := 0 }
      else e }

-- The instruction: thirty-two steps of the shift register.
def crc32Step (poly : Word) (state : Word × Word) : Word × Word :=
  let shifted := state.1 >>> 1 ||| (state.2 &&& 1) <<< 31
  (if state.1.getLsbD 0 then shifted ^^^ poly else shifted, state.2 >>> 1)

def crc32 (checksum data poly : Word) : Word :=
  ((List.range 32).foldl (fun state _ => crc32Step poly state) (checksum, data)).1

def randomPolynomial : Word := 0xEDB88320

def initiateAddress (cfg : Config) (s : Host) : Host :=
  { s with random := cfg.myMacAddress 3 ++ cfg.myMacAddress 2 ++ cfg.myMacAddress 1 ++
      cfg.myMacAddress 0 }

def advanceRandom (cfg : Config) (random : Word) : Word :=
  let random := crc32 random ((cfg.myMacAddress 4).setWidth 32) randomPolynomial
  crc32 random ((cfg.myMacAddress 5).setWidth 32) randomPolynomial

def candidate (random : Word) : Word :=
  (0xA9FE0000 ||| random &&& 0xFF) ||| (1 + (random >>> 8) % 254) <<< 8

def advanceAddress (cfg : Config) (s : Host) : Host :=
  let random := advanceRandom cfg s.random
  { s.note [.chose (candidate random)] with
    random := random
    randomIPAddress := candidate random }

def pipInitLinkLocal (cfg : Config) (s : Host) : Host :=
  if s.linkState ≠ .waiting then s
  else pipSetTimeOut .linkLocal 0 100000 fuzz1s (advanceAddress cfg (initiateAddress cfg s))

def pipDisableLinkLocal (s : Host) : Host :=
  pipResetTimeOut .linkLocal { s with linkState := .waiting }

def maxConflicts : Nat := 10

def conflict (cfg : Config) (s : Host) : Host :=
  let s := advanceAddress cfg { s.note [.dropped] with myIP := 0, linkState := .waiting }
  if s.conflicts + 1 ≥ maxConflicts then
    pipSetTimeOut .linkLocal 60 0 fuzz10s { s with conflicts := 0 }
  else pipSetTimeOut .linkLocal 0 100000 fuzz1s { s with conflicts := s.conflicts + 1 }

def progressState (cfg : Config) (newState : LinkState) (wait fuzz : Nat) (s : Host) : Host :=
  pipSetTimeOut .linkLocal wait 0 fuzz
    (pipCreateARP cfg false s.randomIPAddress none { s with linkState := newState })

def claim (s : Host) : Host :=
  { s.note [.claimed s.randomIPAddress] with myIP := s.randomIPAddress }

def pipTimeOutLinkLocal (cfg : Config) (s : Host) : Host :=
  match s.linkState with
  | .waiting => progressState cfg .probedOnce 1 fuzz1s s
  | .probedOnce => progressState cfg .probedTwice 1 fuzz1s s
  | .probedTwice => progressState cfg .probedThrice 2 0 s
  | .probedThrice => progressState cfg .announcedOnce 2 0 (claim s)
  | .announcedOnce => progressState cfg .announcedTwice 2 0 (claim s)
  | .announcedTwice =>
    pipAssignIPv4 s.randomIPAddress 0 0 (claim { s with linkState := .gotIt })
  | .gotIt => s

def request : BitVec 16 := 256

def reply : BitVec 16 := 512

def arpPacket (packet : Bytes) (offset : Nat) : ArpPacket where
  oper := load packet (2 * (offset + 3))
  sha := macAt packet (2 * offset + 8)
  spa := word packet (2 * offset + 14)
  tpa := word packet (2 * offset + 24)

-- pipIncomingLinkLocalARP: the packet is about the candidate.
def matchesLinkLocal (cfg : Config) (ipAddress : Word) (s : Host) : Bool :=
  cfg.linkLocal && ipAddress == s.randomIPAddress

def incomingARP (cfg : Config) (p : ArpPacket) (s : Host) : Host :=
  if p.oper = request then
    if matchesLinkLocal cfg p.tpa s then conflict cfg s
    else if p.tpa = s.myIP then
      pipCreateARP cfg true p.spa (some p.sha) (pipARPStoreEntry p.spa p.sha s)
    else s
  else if p.oper = reply then
    if matchesLinkLocal cfg p.spa s then conflict cfg s
    else pipARPStoreEntry p.spa p.sha s
  else s

def pipIncomingARP (cfg : Config) (packet : Bytes) (offset : Nat) (s : Host) : Host :=
  let p := arpPacket packet offset
  incomingARP cfg p (s.note [.heard p])

def pipCreateDHCP (firstMessage : Bool) (proposedIP serverIP : Word) (s : Host) : Host :=
  s.note [.builtDHCP ⟨firstMessage, s.xid, proposedIP, serverIP⟩]

structure Options where
  messageType : BitVec 8
  serverIP : Word
  leaseTime : Word
  renewalTime : Word
  rebindTime : Word
  subnet : Word
  router : Word

def Options.take (cfg : Config) (packet : Bytes) (i : Nat) (o : Options) : Options :=
  if packet i = 0x35 then { o with messageType := packet (i + 2) }
  else if packet i = 0x36 then { o with serverIP := word packet (i + 2) }
  else if packet i = 0x33 then { o with leaseTime := word packet (i + 2) }
  else if packet i = 0x3A then { o with renewalTime := word packet (i + 2) }
  else if packet i = 0x3B then { o with rebindTime := word packet (i + 2) }
  else if packet i = 0x01 then { o with subnet := word packet (i + 2) }
  else if packet i = 0x03 ∧ cfg.gateway then { o with router := word packet (i + 2) }
  else o

-- Each turn passes at least two bytes, so the length is fuel enough.
def scanOptions (cfg : Config) (packet : Bytes) (stop : Int) : Nat → Nat → Options → Options
  | 0, _, o => o
  | fuel + 1, i, o =>
    if (i : Int) < stop then
      if packet i = 255 then o
      else scanOptions cfg packet stop fuel (i + (packet (i + 1)).toNat + 2) (o.take cfg packet i)
    else o

def dhcpOptions (cfg : Config) (packet : Bytes) (offset : Nat) (length : Int) : Options :=
  scanOptions cfg packet (offset * 2 + length) length.toNat (offset * 2 + 240) ⟨0, 0, 0, 0, 0, 0, 0⟩

def Options.renewal (o : Options) : Word :=
  if o.renewalTime = 0 then o.leaseTime >>> 1 else o.renewalTime

def Options.rebind (o : Options) : Word :=
  if o.rebindTime = 0 then o.leaseTime - o.leaseTime >>> 3 else o.rebindTime

def dhcpOffer (proposedIP : Word) (s : Host) : Host :=
  pipSetTimeOut .dhcpT2 1 0 fuzz1s
    { pipCreateDHCP false proposedIP s.serverIP s with interval := 1 }

def dhcpAck (cfg : Config) (proposedIP : Word) (o : Options) (s : Host) : Host :=
  let s := if cfg.linkLocal then pipDisableLinkLocal s else s
  let s := pipSetTimeOut .dhcpT1 o.renewal.toNat 0 fuzz1s s
  let s := pipSetTimeOut .dhcpT2 o.rebind.toNat 0 fuzz1s s
  let lease := ⟨s.xid, proposedIP, o.subnet, o.router, wakeUp s.now o.rebind.toNat 0 fuzz1s⟩
  pipAssignIPv4 proposedIP o.subnet o.router { s.note [.leased lease] with dhcpState := .allocated }

def Answers (packet : Bytes) (offset : Nat) (s : Host) : Prop :=
  load packet (2 * (offset + 118)) = 0x8263 ∧ load packet (2 * (offset + 119)) = 0x6353 ∧
    load packet (2 * (offset + 3)) ++ load packet (2 * (offset + 2)) = s.xid

instance (packet : Bytes) (offset : Nat) (s : Host) : Decidable (Answers packet offset s) :=
  inferInstanceAs (Decidable (_ ∧ _ ∧ _))

def pipIncomingDHCP (cfg : Config) (packet : Bytes) (offset : Nat) (length : Int) (s : Host) :
    Host :=
  if ¬Answers packet offset s then s
  else
    let proposedIP := word packet (offset * 2 + 16)
    let o := dhcpOptions cfg packet offset length
    let s := { s with serverIP := o.serverIP }
    if o.messageType = 2 then dhcpOffer proposedIP s
    else if o.messageType = 5 then dhcpAck cfg proposedIP o s
    else s

def pipInitDHCP (cfg : Config) (s : Host) : Host :=
  if cfg.dontWait then pipSetTimeOut .dhcpT2 3 0 0 s else pipSetTimeOut .dhcpT2 1 0 fuzz10s s

def pipTimeOutDHCPT2 (cfg : Config) (s : Host) : Host :=
  let s := { s with xid := BitVec.ofNat 32 s.now }
  let s := if s.dhcpState = .allocated then
      pipUnassignIPv4 { s with dhcpState := .inited } else s
  let s := pipSetTimeOut .dhcpT2 s.interval 0 fuzz1s (pipCreateDHCP true 0 0 s)
  let s := if cfg.linkLocal ∧ s.dhcpState ≠ .blank then pipInitLinkLocal cfg s else s
  { s with dhcpState := .inited, interval := min (s.interval * 2) 60 }

def pipTimeOutDHCPT1 (s : Host) : Host := pipCreateDHCP false s.myIP s.serverIP s

def timedOut (cfg : Config) : Timer → Host → Host
  | .dhcpT1 => pipTimeOutDHCPT1
  | .dhcpT2 => pipTimeOutDHCPT2 cfg
  | .arp => pipTimeOutARP
  | .linkLocal => pipTimeOutLinkLocal cfg

inductive Event where
  | wait (ticks : Nat)
  | expire (timer : Timer)
  | arp (packet : Bytes) (offset : Nat)
  | dhcp (packet : Bytes) (offset : Nat) (length : Int)

def Host.due (s : Host) (timer : Timer) : Bool :=
  match s.timeOut timer with
  | some t => decide (t ≤ s.now)
  | none => false

def step (cfg : Config) (s : Host) : Event → Host
  | .wait ticks => { s with now := s.now + ticks }
  | .expire timer =>
    if s.due timer then timedOut cfg timer (pipResetTimeOut timer s) else s
  | .arp packet offset => pipIncomingARP cfg packet offset s
  | .dhcp packet offset length =>
    if cfg.dhcp then pipIncomingDHCP cfg packet offset length s else s

def run (cfg : Config) (s : Host) (es : List Event) : Host := es.foldl (step cfg) s

def arpStart : Nat → Entry := fun i =>
  if i = 0 then ⟨0xFFFFFFFF, broadcast, 1, 0xff⟩ else ⟨0, noMac, 0, 0⟩

def powerOn (now : Nat) : Host :=
  ⟨now, 0, 0, 0, 0, 0, .waiting, 0, .blank, 0, 0, 4, arpStart, fun _ => none, []⟩

def init (cfg : Config) (now : Nat) : Host :=
  let s := pipInitARP (powerOn now)
  if cfg.dhcp then pipInitDHCP cfg s
  else if cfg.linkLocal then pipInitLinkLocal cfg s
  else s

def linkLocalOnly : Config where
  linkLocal := true
  dhcp := false
  dontWait := false
  gateway := false
  myMacAddress := fun i => [0x00, 0x7F, 0xD3, 0x11, 0x22, 0x33].getD i 0

def expirations (n : Nat) : List Event :=
  (List.replicate n [.wait 500000000, .expire .linkLocal]).flatten

def requestOf (spa tpa : Word) : Bytes := fun i =>
  ([0, 1, 8, 0, 6, 4, 0, 1, 2, 2, 2, 2, 2, 2, spa.extractLsb' 24 8, spa.extractLsb' 16 8,
    spa.extractLsb' 8 8, spa.extractLsb' 0 8, 0, 0, 0, 0, 0, 0, tpa.extractLsb' 24 8,
    tpa.extractLsb' 16 8, tpa.extractLsb' 8 8, tpa.extractLsb' 0 8] : List (BitVec 8)).getD
    (i - 14) 0

end Xtcp.Pip.Address

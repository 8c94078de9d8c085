import Xtcp.Uip.Process

namespace Xtcp.Uip
open Channel Listen

variable {nT nU : Nat}

def needsPoll (s : ServerState nT nU) : Bool :=
  s.connectRequest || 0 < s.sendRequest || s.abortRequest || s.closeRequest || s.ackRequest

def arpMaxage : Int := 120

def broadcastIpaddr : Ipaddr := ⟨255, 255, 255, 255⟩

def maskcmp (a b mask : Ipaddr) : Bool :=
  a.b0 &&& mask.b0 == b.b0 &&& mask.b0 && a.b1 &&& mask.b1 == b.b1 &&& mask.b1 &&
    a.b2 &&& mask.b2 == b.b2 &&& mask.b2 && a.b3 &&& mask.b3 == b.b3 &&& mask.b3

def arpResolves (arp : Arp) (dest : Ipaddr) : Bool :=
  let ipaddr := if maskcmp dest arp.hostaddr arp.netmask then dest else arp.draddr
  dest == broadcastIpaddr || isMulticast dest || arp.table.any fun e => ipaddr == e.ipaddr

def uipArpOut (i : Fin nU) (w : Stack nT nU) : Stack nT nU :=
  let client := !dhcpcPort (w.udp i).lport
  if arpResolves w.arp (w.udp i).ripaddr then
    (w.note (.transmitted (.udp i) client (w.udp i).udpSent)).setUdp i fun c =>
      { c with udpSent := true }
  else
    (w.note (.replaced (.udp i) client (w.udp i).udpPendingArp)).setUdp i fun c =>
      { c with udpPendingArp := true }

-- Every server loop hands a datagram that is ready to uip_arp_out and the MAC at once.
def flush (r : Option (Fin nU) × Stack nT nU) : Stack nT nU :=
  match r with
  | (none, w) => w
  | (some i, w) => uipArpOut i w

def hostUsed (a : Ipaddr) : Bool := (a.b0 != 0 || a.b1 != 0) && (a.b2 != 0 || a.b3 != 0)

def hostUnused (a : Ipaddr) : Bool := a == zeroIpaddr

def arpAge (arp : Arp) (e : ArpEntry) : Int := arp.arptime.toNat - e.time.toNat

def oldestEntry (arp : Arp) : Nat :=
  ((arp.table.zipIdx).foldl (fun (best : Int × Nat) (e : ArpEntry × Nat) =>
    if arpAge arp e.1 > best.1 then (arpAge arp e.1, e.2) else best) (0, 0)).2

def uipArpUpdate (arp : Arp) (ipaddr : Ipaddr) (ethaddr : MacAddr) : Arp :=
  let entry : ArpEntry := ⟨ipaddr, ethaddr, arp.arptime⟩
  match arp.table.findIdx? fun e => hostUsed e.ipaddr && ipaddr == e.ipaddr with
  | some i => { arp with table := arp.table.set i entry }
  | none =>
      match arp.table.findIdx? fun e => hostUnused e.ipaddr with
      | some i => { arp with table := arp.table.set i entry }
      | none => { arp with table := arp.table.set (oldestEntry arp) entry }

inductive ArpOpcode where
  | request
  | reply
  | other
  deriving DecidableEq, Repr

structure ArpPacket where
  opcode : ArpOpcode
  sipaddr : Ipaddr
  dipaddr : Ipaddr
  shwaddr : MacAddr
  long : Bool
  deriving DecidableEq, Repr

def uipArpArpin (arp : Arp) (p : ArpPacket) : Arp :=
  if p.long && p.opcode != .other && p.dipaddr == arp.hostaddr then
    uipArpUpdate arp p.sipaddr p.shwaddr
  else arp

def uipArpTimer (arp : Arp) : Arp :=
  let arp := { arp with arptime := arp.arptime + 1 }
  { arp with table := arp.table.map fun e =>
      if !hostUnused e.ipaddr && arpAge arp e ≥ arpMaxage then { e with ipaddr := zeroIpaddr }
      else e }

def pollTcp (cfg : Config) (w : Stack nT nU) (i : Fin nT) : Stack nT nU :=
  if needsPoll (w.app (.tcp i)).s then pollConn cfg i w else w

def pollUdp (cfg : Config) (w : Stack nT nU) (i : Fin nU) : Stack nT nU :=
  if needsPoll (w.app (.udp i)).s then flush (udpPeriodic cfg i w) else w

def xtcpdCheckConnectionPoll (cfg : Config) (w : Stack nT nU) : Stack nT nU :=
  (List.finRange nU).foldl (pollUdp cfg) ((List.finRange nT).foldl (pollTcp cfg) w)

def processArp (cfg : Config) (p : ArpPacket) (w : Stack nT nU) : Stack nT nU :=
  (List.finRange nU).foldl (fun w i => flush (udpArpEvent cfg i w))
    { w with arp := uipArpArpin w.arp p }

def ackUdp (cfg : Config) (w : Stack nT nU) (i : Fin nU) : Stack nT nU :=
  if (w.udp i).udpSent then flush (udpAckdata cfg i w) else w

def xtcpProcessUdpAcks (cfg : Config) (w : Stack nT nU) : Stack nT nU :=
  (List.finRange nU).foldl (ackUdp cfg) w

def xtcpProcessPeriodicTimer (cfg : Config) (w : Stack nT nU) : Stack nT nU :=
  (List.finRange nT).foldl (fun w i => periodic cfg i w)
    ((List.finRange nU).foldl (fun w i => flush (udpPeriodic cfg i w)) w)

inductive Input where
  | serviceClients (cs : List (Nat × Command))
  | checkConnectionPoll
  | segment (seg : Segment)
  | datagram (d : Datagram)
  | arpPacket (p : ArpPacket)
  | otherPacket
  | udpAcks
  | periodicTimer
  | arpTimer
  | configure (hostaddr netmask draddr : Ipaddr)
  deriving DecidableEq, Repr

def perform (cfg : Config) (w : Stack nT nU) : Input → Stack nT nU
  | .serviceClients cs => runCommands cfg w cs
  | .checkConnectionPoll => xtcpdCheckConnectionPoll cfg w
  | .segment seg => tcpInput cfg seg w
  | .datagram d => flush (udpInput cfg d w)
  | .arpPacket p => processArp cfg p w
  | .otherPacket => w
  | .udpAcks => xtcpProcessUdpAcks cfg w
  | .periodicTimer => xtcpProcessPeriodicTimer cfg w
  | .arpTimer => { w with arp := uipArpTimer w.arp }
  | .configure hostaddr netmask draddr =>
      { w with arp := { w.arp with hostaddr := hostaddr, netmask := netmask, draddr := draddr } }

def step (cfg : Config) (w : Stack nT nU) (input : Env × Input) : Stack nT nU :=
  perform cfg { w with env := input.1 } input.2

def run (cfg : Config) (w : Stack nT nU) (inputs : List (Env × Input)) : Stack nT nU :=
  inputs.foldl (step cfg) w

-- With DHCP the client holds the first UDP slot from the start.
def uipInit (nT nU numTcp numUdp numPorts arptab : Nat) (dhcp : Bool) : Stack nT nU where
  tcp _ := .zero
  udp i := if dhcp && i.val == 0 then ⟨broadcastIpaddr, htons 68, htons 67, false, false⟩
    else .zero
  app _ := .zero
  tables := Listen.uipInit numTcp numUdp numPorts
  guid := 1
  lastport := 1024
  iss := 0
  uipFlags := Flags.none
  uipLen := 0
  uipSlen := 0
  srcipaddr := zeroIpaddr
  srcport := 0
  arp := ⟨List.replicate arptab ⟨zeroIpaddr, ⟨0, 0, 0, 0, 0, 0⟩, 0⟩, 0, zeroIpaddr, zeroIpaddr,
    zeroIpaddr⟩
  wire := []
  env := ⟨[], [], [], []⟩
  fault := false
  raising := none
  origin _ := none
  owner _ := none
  log := []

end Xtcp.Uip

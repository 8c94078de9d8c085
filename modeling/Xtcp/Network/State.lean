import Xtcp.Autoip.State
import Xtcp.Dhcpc.Thread

namespace Xtcp.Network

open Channel Timer

-- The build's options and the MAC address.
structure Build where
  useDhcp : Bool
  useAutoip : Bool
  ethaddr : MacAddr

structure NetState where
  staticIpconfig : Option Ipconfig
  hostaddr : Ipaddr
  draddr : Ipaddr
  netmask : Ipaddr
  dhcpDone : Bool
  ifstate : Bool
  prevIfstate : List (Option Bool)
  dhcp : Dhcpc.DhcpcState
  autoip : Autoip.AutoipState

-- told: an event that one client is sent, checked: the state that uip_xtcp_checkstate finds.
inductive Note where
  | linkup
  | linkdown
  | dhcp (n : Dhcpc.Note)
  | autoip (n : Autoip.Note)
  | checked (up : Bool)
  | told (linknum : Nat) (up : Bool)

abbrev Result := NetState × List Note

def uipXtcpUp (s : NetState) : NetState := { s with ifstate := true }

def uipXtcpDown (s : NetState) : NetState := { s with ifstate := false }

def setAddresses (hostaddr draddr netmask : Ipaddr) (s : NetState) : NetState :=
  { s with hostaddr := hostaddr, draddr := draddr, netmask := netmask }

def hwseed (m : MacAddr) : Word :=
  let hwsum : Word := BitVec.ofNat 32
    (m.b0.toNat + m.b1.toNat + m.b2.toNat + m.b3.toNat + m.b4.toNat + m.b5.toNat)
  hwsum + (hwsum <<< 16) + (hwsum <<< 24)

-- s: the zeroed variables, ipconfig: what the application asks for.
def uipServerInit (b : Build) (clients : Nat) (ipconfig : Option Ipconfig) (s : NetState) :
    NetState :=
  let s := match ipconfig with
    | none => setAddresses Dhcpc.zeroIpaddr Dhcpc.zeroIpaddr Dhcpc.zeroIpaddr s
    | some c => setAddresses c.ipaddr c.gateway c.netmask s
  { s with
    staticIpconfig := ipconfig.filter fun c => c.ipaddr ≠ Dhcpc.zeroIpaddr
    dhcpDone := false
    ifstate := false
    prevIfstate := List.replicate clients none
    dhcp := Dhcpc.dhcpcInit b.ethaddr s.dhcp
    autoip := Autoip.autoipInit (hwseed b.ethaddr) s.autoip }

section Steps

variable (b : Build)

def dhcpcConfigured (l : Dhcpc.Lease) (s : NetState) : NetState :=
  let s := if b.useAutoip then { s with autoip := Autoip.autoipStop s.autoip } else s
  let s := uipXtcpUp (setAddresses l.ipaddr l.defaultRouter l.netmask s)
  { s with dhcpDone := true }

def autoipConfigured (a : Ipaddr) (s : NetState) : NetState :=
  if s.dhcpDone then s
  else uipXtcpUp (setAddresses a ⟨0, 0, 0, 0⟩ ⟨255, 255, 0, 0⟩ s)

-- What the DHCP client calls as it goes on.
def onDhcp (s : NetState) : Dhcpc.Note → NetState
  | .autoipStart => { s with autoip := Autoip.autoipStart s.autoip }
  | .configured l => dhcpcConfigured b l s
  | _ => s

def onAutoip (s : NetState) : Autoip.Note → NetState
  | .configured a => autoipConfigured a s
  | _ => s

def dhcpcStop (s : NetState) : Result :=
  if b.useDhcp then ({ s with dhcp := Dhcpc.dhcpcStop s.dhcp }, [.dhcp .stopped]) else (s, [])

def dhcpcStart (s : NetState) : Result :=
  if b.useDhcp then ({ s with dhcp := Dhcpc.dhcpcStart s.dhcp }, [.dhcp .started]) else (s, [])

def autoipStop (s : NetState) : NetState :=
  if b.useAutoip then { s with autoip := Autoip.autoipStop s.autoip } else s

def autoipLinkup (s : NetState) : NetState :=
  if b.useAutoip ∧ ¬ b.useDhcp then { s with autoip := Autoip.autoipStart s.autoip }
  else autoipStop b s

def uipLinkup (s : NetState) : Result :=
  let s := if s.ifstate then uipXtcpDown s else s
  match s.staticIpconfig with
  | some c => (uipXtcpUp (setAddresses c.ipaddr c.gateway c.netmask s), [.linkup])
  | none =>
    let r := dhcpcStop b { s with dhcpDone := false }
    let q := dhcpcStart b (autoipLinkup b r.1)
    (q.1, .linkup :: (r.2 ++ q.2))

def uipLinkdown (s : NetState) : Result :=
  let r := dhcpcStop b { s with dhcpDone := false }
  (uipXtcpDown (autoipStop b r.1), .linkdown :: r.2)

def dhcpcAppcall (i : Dhcpc.Input) (s : NetState) : Result :=
  if b.useDhcp then
    let r := Dhcpc.handleDhcp b.useAutoip { i with hostaddr := s.hostaddr } s.dhcp
    (r.2.foldl (onDhcp b) { s with dhcp := r.1 }, r.2.map .dhcp)
  else (s, [])

def onAutoipResult (s : NetState) (r : Autoip.AutoipState × List Autoip.Note) : Result :=
  (r.2.foldl onAutoip { s with autoip := r.1 }, r.2.map .autoip)

def autoipPeriodic (now set : Word) (s : NetState) : Option Result :=
  if b.useAutoip then
    (Autoip.autoipPeriodic b.ethaddr now set s.autoip).map (onAutoipResult s)
  else some (s, [])

def autoipArpIn (sipaddr : Ipaddr) (s : NetState) : Option Result :=
  if b.useAutoip then (Autoip.autoipArpIn sipaddr s.autoip).map (onAutoipResult s)
  else some (s, [])

def tell (ifstate : Bool) (p : Option Bool × Nat) : List Note :=
  if some ifstate ≠ p.1 then [.told p.2 ifstate] else []

def uipXtcpCheckstate (s : NetState) : Result :=
  ({ s with prevIfstate := s.prevIfstate.map fun p =>
      if some s.ifstate ≠ p then some s.ifstate else p },
    .checked s.ifstate :: s.prevIfstate.zipIdx.flatMap (tell s.ifstate))

inductive Event where
  | linkup
  | linkdown
  | dhcp (i : Dhcpc.Input)
  | periodic (now set : Word)
  | arpIn (sipaddr : Ipaddr)
  | check

def step (s : NetState) : Event → Option Result
  | .linkup => some (uipLinkup b s)
  | .linkdown => some (uipLinkdown b s)
  | .dhcp i => some (dhcpcAppcall b i s)
  | .periodic now set => autoipPeriodic b now set s
  | .arpIn a => autoipArpIn b a s
  | .check => some (uipXtcpCheckstate s)

inductive Run (s : NetState) : NetState → List Note → Prop where
  | nil : Run s s []
  | concat {s' s'' : NetState} {notes new : List Note} {e : Event} :
      Run s s' notes → step b s' e = some (s'', new) → Run s s'' (notes ++ new)

end Steps

end Xtcp.Network

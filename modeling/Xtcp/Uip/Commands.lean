import Xtcp.Uip.State

namespace Xtcp.Uip
open Channel Listen

variable {nT nU : Nat}

def lookupXtcpdState (w : Stack nT nU) (connId : Nat) : Option (Slot nT nU) :=
  (Slot.all nT nU).find? fun slot => (w.app slot).conn.id == connId

def TcpConn.isClosed (c : TcpConn) : Bool := c.tcpstateflags == ⟨.closed, false⟩

def TcpConn.isTimeWait (c : TcpConn) : Bool := c.tcpstateflags == ⟨.timeWait, false⟩

def bumpPort (lastport : Nat) : Nat := if lastport + 1 ≥ 32000 then 4096 else lastport + 1

-- The loop back to "again": one try more than there are connections that can hold a port.
def freePort (used : Nat → Bool) : Nat → Nat → Nat
  | 0, lastport => bumpPort lastport
  | fuel + 1, lastport =>
      if used (bumpPort lastport) then freePort used fuel (bumpPort lastport)
      else bumpPort lastport

def older (tcp : Fin nT → TcpConn) (best : Option (Fin nT)) (i : Fin nT) : Option (Fin nT) :=
  if (tcp i).isTimeWait then
    match best with
    | none => some i
    | some j => if (tcp j).timer < (tcp i).timer then some i else some j
  else best

def unusedTcp (w : Stack nT nU) : Option (Fin nT) :=
  match (List.finRange nT).find? fun i => (w.tcp i).isClosed with
  | some i => some i
  | none => (List.finRange nT).foldl (older w.tcp) none

def unusedUdp (w : Stack nT nU) : Option (Fin nU) :=
  (List.finRange nU).find? fun i => (w.udp i).lport == 0

def tcpPortUsed (w : Stack nT nU) (port : Nat) : Bool :=
  (List.finRange nT).any fun i => !(w.tcp i).isClosed && (w.tcp i).lport == htons port

def udpPortUsed (w : Stack nT nU) (port : Nat) : Bool :=
  (List.finRange nU).any fun i => (w.udp i).lport == htons port

def uipRto : BitVec 8 := 3

def uipConnect (cfg : Config) (w : Stack nT nU) (ripaddr : Ipaddr) (rport : Nat) :
    Option (Fin nT) × Stack nT nU :=
  let w := { w with lastport := freePort (tcpPortUsed w) nT w.lastport }
  match unusedTcp w with
  | none => (none, w)
  | some i => (some i, w.setTcp i fun c =>
      { c with
        tcpstateflags := ⟨.synSent, false⟩
        sndNxt := w.iss
        initialmss := cfg.tcpMss
        mss := cfg.tcpMss
        len := 1
        nrtx := 0
        timer := 1
        rto := uipRto
        sa := 0
        sv := 16
        lport := htons w.lastport
        rport := rport
        ripaddr := ripaddr })

def Stack.clear (w : Stack nT nU) (i : Fin nU) : Stack nT nU :=
  w.note (.cleared (.udp i) ((w.udp i).udpSent || (w.udp i).udpPendingArp))

def uipUdpNew (w : Stack nT nU) (ripaddr : Ipaddr) (rport : Nat) :
    Option (Fin nU) × Stack nT nU :=
  let w := { w with lastport := freePort (udpPortUsed w) nU w.lastport }
  match unusedUdp w with
  | none => (none, w)
  | some i => (some i, (w.clear i).setUdp i fun _ =>
      ⟨ripaddr, htons w.lastport, rport, false, false⟩)

def clientConnection : Nat := 0

def serverConnection : Nat := 1

def Stack.open (w : Stack nT nU) (slot : Slot nT nU) (origin : Origin) : Stack nT nU :=
  { w with
    origin := Function.update w.origin slot (some origin)
    log := w.log ++ [.opened slot origin (w.app slot).s.connectRequest w.raising] }

def requestConnect (w : Stack nT nU) (slot : Slot nT nU) (linknum : Nat) : Stack nT nU :=
  (w.open slot (.active linknum)).setApp slot fun x =>
    { x with
      linknum := some linknum
      s := { x.s with connectRequest := true }
      conn := { x.conn with connectionType := clientConnection } }

def xtcpdConnect (cfg : Config) (w : Stack nT nU) (linknum portNumber : Nat) (addr : Ipaddr) :
    Protocol → Stack nT nU
  | .tcp => match uipConnect cfg w addr (htons portNumber) with
      | (none, w) => w
      | (some i, w) => requestConnect w (.tcp i) linknum
  | .udp => match uipUdpNew w addr (htons portNumber) with
      | (none, w) => w
      | (some i, w) => requestConnect w (.udp i) linknum

def xtcpdListen (w : Stack nT nU) (linknum portNumber : Nat) : Protocol → Stack nT nU
  | .tcp => { w with tables := xtcpdListenTcp w.tables linknum portNumber }
  | .udp => { w with tables := xtcpdListenUdp w.tables linknum portNumber }

def Stack.deref (w : Stack nT nU) : Stack nT nU := { w with fault := true }

def xtcpdBindLocal (w : Stack nT nU) (connId portNumber : Nat) : Stack nT nU :=
  match lookupXtcpdState w connId with
  | none => w.deref
  | some slot =>
      let w := w.setConn slot fun c => { c with localPort := portNumber }
      match (w.app slot).s.uipConn with
      | none => w.deref
      | some (.tcp i) =>
          (w.note (.bound (.tcp i) (w.tcp i).lport (htons portNumber))).setTcp i fun c =>
            { c with lport := htons portNumber }
      | some (.udp i) =>
          (w.note (.bound (.udp i) (w.udp i).lport (htons portNumber))).setUdp i fun c =>
            { c with lport := htons portNumber }

def xtcpdBindRemote (w : Stack nT nU) (connId : Nat) (addr : Ipaddr) (portNumber : Nat) :
    Stack nT nU :=
  match lookupXtcpdState w connId with
  | none => w.deref
  | some slot =>
      if Protocol.ofWord (w.app slot).conn.protocol = .udp then
        let w := w.setConn slot fun c =>
          { c with remotePort := portNumber, remoteAddr := ipaddrWord addr }
        match (w.app slot).s.uipConn with
        | some (.udp i) => w.setUdp i fun c =>
            { c with rport := htons portNumber, ripaddr := addr }
        | some (.tcp i) => w.setTcp i fun c =>
            { c with rport := htons portNumber, ripaddr := addr }
        | none => w.deref
      else w

def onState (w : Stack nT nU) (connId : Nat) (f : Slot nT nU → Stack nT nU) : Stack nT nU :=
  match lookupXtcpdState w connId with
  | none => w
  | some slot => f slot

def xtcpdInitSend (w : Stack nT nU) (connId : Nat) : Stack nT nU :=
  onState w connId fun slot => w.setS slot fun s => { s with sendRequest := s.sendRequest + 1 }

def xtcpdSetAppstate (w : Stack nT nU) (connId appstate : Nat) : Stack nT nU :=
  onState w connId fun slot => w.setConn slot fun c => { c with appstate := appstate }

def xtcpdAbort (w : Stack nT nU) (connId : Nat) : Stack nT nU :=
  onState w connId fun slot => w.setS slot fun s => { s with abortRequest := true }

def xtcpdClose (w : Stack nT nU) (connId : Nat) : Stack nT nU :=
  onState w connId fun slot => w.setS slot fun s => { s with closeRequest := true }

def xtcpdAckRecvMode (w : Stack nT nU) (connId : Nat) : Stack nT nU :=
  onState w connId fun slot => w.setS slot fun s => { s with ackRecvMode := true }

-- UIP_STOPPED in the tcpstateflags byte of a struct uip_conn. On a struct uip_udp_conn that
-- byte is the second one of conn.connection_type, so the bit there is bit 12.
def setStopped (w : Stack nT nU) : Option (Slot nT nU) → Stack nT nU
  | none => w.deref
  | some (.tcp i) => w.setTcp i fun c =>
      { c with tcpstateflags := { c.tcpstateflags with stopped := true } }
  | some (.udp i) => (w.note (.paused (.udp i))).setConn (.udp i) fun c =>
      { c with connectionType := c.connectionType ||| 4096 }

def clearStopped (w : Stack nT nU) : Option (Slot nT nU) → Stack nT nU
  | none => w.deref
  | some (.tcp i) => w.setTcp i fun c =>
      { c with tcpstateflags := { c.tcpstateflags with stopped := false } }
  | some (.udp i) => (w.note (.paused (.udp i))).setConn (.udp i) fun c =>
      { c with connectionType := c.connectionType ^^^ (c.connectionType &&& 4096) }

def xtcpdPause (w : Stack nT nU) (connId : Nat) : Stack nT nU :=
  onState w connId fun slot => setStopped w (w.app slot).s.uipConn

def xtcpdUnpause (w : Stack nT nU) (connId : Nat) : Stack nT nU :=
  onState w connId fun slot =>
    (clearStopped w (w.app slot).s.uipConn).setS slot fun s => { s with ackRequest := true }

def xtcpdAckRecv (w : Stack nT nU) (connId : Nat) : Stack nT nU := xtcpdUnpause w connId

def xtcpdSetPollInterval (w : Stack nT nU) (connId pollInterval : Nat) : Stack nT nU :=
  onState w connId fun slot =>
    if Protocol.ofWord (w.app slot).conn.protocol = .udp then
      w.setS slot fun s => { s with pollInterval := pollInterval }
    else w

def runCommand (cfg : Config) (w : Stack nT nU) : Nat × Command → Stack nT nU
  | (linknum, .listen portNumber p) => xtcpdListen w linknum portNumber p
  | (_, .unlisten portNumber) => { w with tables := xtcpdUnlisten w.tables portNumber }
  | (linknum, .connect portNumber ipaddr p) => xtcpdConnect cfg w linknum portNumber ipaddr p
  | (_, .bindLocal connId portNumber) => xtcpdBindLocal w connId portNumber
  | (_, .bindRemote connId addr portNumber) => xtcpdBindRemote w connId addr portNumber
  | (_, .initSend connId) => xtcpdInitSend w connId
  | (_, .setAppstate connId appstate) => xtcpdSetAppstate w connId appstate
  | (_, .close connId) => xtcpdClose w connId
  | (_, .abort connId) => xtcpdAbort w connId
  | (_, .setPollInterval connId pollInterval) => xtcpdSetPollInterval w connId pollInterval
  | (_, .ackRecv connId) => xtcpdAckRecv w connId
  | (_, .ackRecvMode connId) => xtcpdAckRecvMode w connId
  | (_, .pause connId) => xtcpdPause w connId
  | (_, .unpause connId) => xtcpdUnpause w connId
  -- UIP_IGMP and XTCP_ENABLE_PARTIAL_PACKET_ACK are off in this build
  | (_, .joinGroup _) => w
  | (_, .leaveGroup _) => w
  | (_, .acceptPartialAck _) => w
  | (_, .getMacAddress) => w
  | (_, .getIpconfig) => w

def runCommands (cfg : Config) (w : Stack nT nU) (cs : List (Nat × Command)) : Stack nT nU :=
  cs.foldl (runCommand cfg) w

end Xtcp.Uip

import Xtcp.Uip.Appcall
import Xtcp.Uip.Word

namespace Xtcp.Uip
open Channel Listen

variable {nT nU : Nat}

def timeWaitTimeout : BitVec 8 := 120

def maxRtx : BitVec 8 := 8

def maxSynRtx : BitVec 8 := 5

def Stack.state (w : Stack nT nU) (i : Fin nT) : TcpState := (w.tcp i).tcpstateflags.state

def Stack.drop (w : Stack nT nU) : Stack nT nU :=
  { w with uipLen := 0, uipFlags := Flags.none }

structure Ctl where
  fin : Bool
  syn : Bool
  rst : Bool
  psh : Bool
  ack : Bool

def Ctl.ackOnly : Ctl := ⟨false, false, false, false, true⟩

def Ctl.ackPsh : Ctl := ⟨false, false, false, true, true⟩

def Ctl.finAck : Ctl := ⟨true, false, false, false, true⟩

def Ctl.rstAck : Ctl := ⟨false, false, true, false, true⟩

def Ctl.synAck : Ctl := ⟨false, true, false, false, true⟩

def Ctl.synOnly : Ctl := ⟨false, true, false, false, false⟩

def tcpSend (cfg : Config) (i : Fin nT) (flags : Ctl) (len : Nat) (w : Stack nT nU) :
    Stack nT nU :=
  let c := w.tcp i
  { w with
    uipFlags := Flags.none
    wire := w.wire ++ [{
      srcipaddr := w.arp.hostaddr
      srcport := c.lport
      destport := c.rport
      seqno := c.sndNxt
      ackno := c.rcvNxt
      fin := flags.fin
      syn := flags.syn
      rst := flags.rst
      psh := flags.psh
      ack := flags.ack
      urg := false
      wnd := if c.tcpstateflags.stopped then 0 else cfg.receiveWindow
      urgp := 0
      len := len
      mssOption := if flags.syn then some cfg.tcpMss else none }] }

def reset (seg : Segment) (w : Stack nT nU) : Stack nT nU :=
  if seg.rst then w.drop
  else
    { w with
      uipFlags := Flags.none
      wire := w.wire ++ [{ seg with
        srcipaddr := w.arp.hostaddr
        srcport := seg.destport
        destport := seg.srcport
        seqno := seg.ackno
        ackno := incremented seg.seqno
        fin := false
        syn := false
        rst := true
        psh := false
        ack := true
        urg := false
        urgp := 0
        len := 0
        mssOption := none }] }

def addRcvNxt (i : Fin nT) (n : Nat) (w : Stack nT nU) : Stack nT nU :=
  w.setTcp i fun c => { c with rcvNxt := c.rcvNxt + BitVec.ofNat 32 n }

def apprexmit (cfg : Config) (i : Fin nT) (w : Stack nT nU) : Stack nT nU :=
  if 0 < w.uipSlen && 0 < (w.tcp i).len then tcpSend cfg i .ackPsh (w.tcp i).len w
  else if w.uipFlags.newdata then tcpSend cfg i .ackOnly 0 w
  else w.drop

def appsendData (i : Fin nT) (w : Stack nT nU) : Stack nT nU :=
  if 0 < w.uipSlen then
    let w := if w.uipFlags.ackdata then w.setTcp i fun c => { c with len := 0 } else w
    if (w.tcp i).len = 0 then
      let slen := min w.uipSlen (w.tcp i).mss
      { w.setTcp i fun c => { c with len := slen } with uipSlen := slen }
    else { w with uipSlen := (w.tcp i).len }
  else w

def appsend (cfg : Config) (i : Fin nT) (w : Stack nT nU) : Stack nT nU :=
  if w.uipFlags.abort then
    tcpSend cfg i .rstAck 0 ({ w with uipSlen := 0 }.setState i .closed)
  else if w.uipFlags.close then
    tcpSend cfg i .finAck 0
      (({ w with uipSlen := 0 }.setTcp i fun c => { c with len := 1, nrtx := 0 }).setState i
        .finWait1)
  else apprexmit cfg i (appsendData i (w.setTcp i fun c => { c with nrtx := 0 }))

def withFlags (flags : Flags) (w : Stack nT nU) : Stack nT nU := { w with uipFlags := flags }

def pollConn (cfg : Config) (i : Fin nT) (w : Stack nT nU) : Stack nT nU :=
  if w.state i = .established ∧ (w.tcp i).len = 0 then
    appsend cfg i (xtcpdAppcall cfg (.tcp i)
      { w with uipFlags := { Flags.none with poll := true }, uipLen := 0, uipSlen := 0 })
  else w.drop

def rexmitTimer (nrtx : BitVec 8) : BitVec 8 :=
  uipRto <<< (if 4 < nrtx then 4 else nrtx)

def retransmit (cfg : Config) (i : Fin nT) (w : Stack nT nU) : Stack nT nU :=
  let w := w.setTcp i fun c => { c with timer := rexmitTimer c.nrtx, nrtx := c.nrtx + 1 }
  match w.state i with
  | .synRcvd => tcpSend cfg i .synAck 0 w
  | .synSent => tcpSend cfg i .synOnly 0 w
  | .established =>
      apprexmit cfg i (xtcpdAppcall cfg (.tcp i) (withFlags { Flags.none with rexmit := true } w))
  | .finWait1 => tcpSend cfg i .finAck 0 w
  | .closing => tcpSend cfg i .finAck 0 w
  | .lastAck => tcpSend cfg i .finAck 0 w
  | _ => w.drop

def Stack.kill (w : Stack nT nU) (i : Fin nT) : Stack nT nU :=
  (w.note (.killed (.tcp i) (w.state i))).setState i .closed

def outstandingTimer (cfg : Config) (i : Fin nT) (w : Stack nT nU) : Stack nT nU :=
  let timer := (w.tcp i).timer
  let w := w.setTcp i fun c => { c with timer := c.timer - 1 }
  let c := w.tcp i
  if timer = 0 then
    if c.nrtx = maxRtx ∨
        ((c.tcpstateflags = ⟨.synSent, false⟩ ∨ c.tcpstateflags = ⟨.synRcvd, false⟩) ∧
          c.nrtx = maxSynRtx) then
      tcpSend cfg i .rstAck 0
        (xtcpdAppcall cfg (.tcp i) (withFlags { Flags.none with timedout := true } (w.kill i)))
    else retransmit cfg i w
  else w.drop

def periodicConn (cfg : Config) (i : Fin nT) (w : Stack nT nU) : Stack nT nU :=
  let c := w.tcp i
  if c.tcpstateflags = ⟨.timeWait, false⟩ ∨ c.tcpstateflags = ⟨.finWait2, false⟩ then
    let w := w.setTcp i fun c => { c with timer := c.timer + 1 }
    (if (w.tcp i).timer = timeWaitTimeout then w.setState i .closed else w).drop
  else if c.tcpstateflags = ⟨.closed, false⟩ then w.drop
  else if c.len ≠ 0 then outstandingTimer cfg i w
  else if c.tcpstateflags.state = .established then
    appsend cfg i (xtcpdAppcall cfg (.tcp i) (withFlags { Flags.none with poll := true } w))
  else w.drop

def periodic (cfg : Config) (i : Fin nT) (w : Stack nT nU) : Stack nT nU :=
  periodicConn cfg i { w with iss := incrementedApart w.iss, uipLen := 0, uipSlen := 0 }

def rttUpdate (c : TcpConn) : TcpConn :=
  let m := c.rto - c.timer - c.sa >>> 3
  let sa := c.sa + m
  let m := (if m.slt 0 then -m else m) - c.sv >>> 2
  let sv := c.sv + m
  { c with sa := sa, sv := sv, rto := sa >>> 3 + sv }

def ackConn (c : TcpConn) : TcpConn :=
  let c := { c with sndNxt := c.sndNxt + BitVec.ofNat 32 c.len }
  let c := if c.nrtx = 0 then rttUpdate c else c
  { c with timer := c.rto, len := 0 }

def ackOutstanding (i : Fin nT) (seg : Segment) (w : Stack nT nU) : Stack nT nU :=
  let c := w.tcp i
  if seg.ack && 0 < c.len && seg.ackno == c.sndNxt + BitVec.ofNat 32 c.len then
    withFlags { Flags.none with ackdata := true } (w.setTcp i ackConn)
  else w

def setPush (seg : Segment) (w : Stack nT nU) : Stack nT nU :=
  if seg.psh then { w with uipFlags := { w.uipFlags with push := true } } else w

def setMss (cfg : Config) (i : Fin nT) (seg : Segment) (w : Stack nT nU) : Stack nT nU :=
  match seg.mssOption with
  | none => w
  | some mss =>
    w.setTcp i fun c => { c with initialmss := min mss cfg.tcpMss, mss := min mss cfg.tcpMss }

def synRcvdInput (cfg : Config) (i : Fin nT) (w : Stack nT nU) : Stack nT nU :=
  if w.uipFlags.ackdata then
    let w := (w.setTcp i fun c => { c with len := 0 }).setState i .established
    let w := if 0 < w.uipLen then
        addRcvNxt i w.uipLen
          (withFlags { Flags.none with connected := true, newdata := true } w)
      else withFlags { Flags.none with connected := true } w
    appsend cfg i (xtcpdAppcall cfg (.tcp i) { w with uipSlen := 0 })
  else w.drop

def Segment.isSyn (seg : Segment) : Bool :=
  seg.syn && !seg.fin && !seg.rst && !seg.psh && !seg.ack && !seg.urg

def Segment.isSynAck (seg : Segment) : Bool :=
  seg.syn && seg.ack && !seg.fin && !seg.rst && !seg.psh && !seg.urg

def synSentInput (cfg : Config) (i : Fin nT) (seg : Segment) (w : Stack nT nU) : Stack nT nU :=
  if w.uipFlags.ackdata && seg.isSynAck then
    let w := (setMss cfg i seg w).setState i .established
    let w := w.setTcp i fun c => { c with rcvNxt := seg.seqno + 1, len := 0 }
    appsend cfg i (xtcpdAppcall cfg (.tcp i)
      { withFlags { Flags.none with connected := true, newdata := true } w with
        uipLen := 0, uipSlen := 0 })
  else
    -- the connection is closed after the application has been told
    reset seg ((xtcpdAppcall cfg (.tcp i)
      (withFlags { Flags.none with abort := true }
        (w.note (.killed (.tcp i) (w.state i))))).setState i .closed)

def finInput (cfg : Config) (i : Fin nT) (w : Stack nT nU) : Stack nT nU :=
  if (w.tcp i).len ≠ 0 then w.drop
  else
    let flags := { w.uipFlags with close := true }
    let flags := if 0 < w.uipLen then { flags with newdata := true } else flags
    let w := xtcpdAppcall cfg (.tcp i) (withFlags flags (addRcvNxt i (1 + w.uipLen) w))
    tcpSend cfg i .finAck 0 ((w.setTcp i fun c => { c with len := 1, nrtx := 0 }).setState i .lastAck)

def takeUrgent (seg : Segment) (w : Stack nT nU) : Stack nT nU :=
  if seg.urg then { w with uipLen := (w.uipLen + 65536 - seg.urgp) % 65536 } else w

def takeData (cfg : Config) (i : Fin nT) (w : Stack nT nU) : Stack nT nU :=
  if 0 < w.uipLen ∧ (cfg.acceptAfterPause ∨ ¬ (w.tcp i).tcpstateflags.stopped) then
    addRcvNxt i w.uipLen (withFlags { w.uipFlags with newdata := true } w)
  else w

def takeWindow (i : Fin nT) (seg : Segment) (w : Stack nT nU) : Stack nT nU :=
  w.setTcp i fun c =>
    { c with mss := if c.initialmss < seg.wnd ∨ seg.wnd = 0 then c.initialmss else seg.wnd }

def establishedInput (cfg : Config) (i : Fin nT) (seg : Segment) (w : Stack nT nU) :
    Stack nT nU :=
  if seg.fin && !(w.tcp i).tcpstateflags.stopped then finInput cfg i w
  else
    let w := takeWindow i seg (takeData cfg i (takeUrgent seg w))
    if w.uipFlags.newdata || w.uipFlags.ackdata then
      appsend cfg i (xtcpdAppcall cfg (.tcp i) { w with uipSlen := 0 })
    else w.drop

def lastAckInput (cfg : Config) (i : Fin nT) (w : Stack nT nU) : Stack nT nU :=
  if w.uipFlags.ackdata then
    (xtcpdAppcall cfg (.tcp i)
      (withFlags { Flags.none with close := true } (w.setState i .closed))).drop
  else w.drop

def finWait1Input (cfg : Config) (i : Fin nT) (seg : Segment) (w : Stack nT nU) : Stack nT nU :=
  let len := w.uipLen
  let acked := w.uipFlags.ackdata
  let w := if 0 < len then addRcvNxt i len w else w
  if seg.fin then
    let w := if acked then
        (w.setTcp i fun c => { c with timer := 0, len := 0 }).setState i .timeWait
      else w.setState i .closing
    tcpSend cfg i .ackOnly 0
      (xtcpdAppcall cfg (.tcp i) (withFlags { Flags.none with close := true } (addRcvNxt i 1 w)))
  else if acked then ((w.setTcp i fun c => { c with len := 0 }).setState i .finWait2).drop
  else if 0 < len then tcpSend cfg i .ackOnly 0 w
  else w.drop

def finWait2Input (cfg : Config) (i : Fin nT) (seg : Segment) (w : Stack nT nU) : Stack nT nU :=
  let len := w.uipLen
  let w := if 0 < len then addRcvNxt i len w else w
  if seg.fin then
    let w := addRcvNxt i 1 ((w.setTcp i fun c => { c with timer := 0 }).setState i .timeWait)
    tcpSend cfg i .ackOnly 0
      (xtcpdAppcall cfg (.tcp i) (withFlags { Flags.none with close := true } w))
  else if 0 < len then tcpSend cfg i .ackOnly 0 w
  else w.drop

def closingInput (i : Fin nT) (w : Stack nT nU) : Stack nT nU :=
  if w.uipFlags.ackdata then
    ((w.setTcp i fun c => { c with timer := 0 }).setState i .timeWait).drop
  else w.drop

def stateInput (cfg : Config) (i : Fin nT) (seg : Segment) (w : Stack nT nU) : Stack nT nU :=
  match w.state i with
  | .synRcvd => synRcvdInput cfg i w
  | .synSent => synSentInput cfg i seg w
  | .established => establishedInput cfg i seg w
  | .lastAck => lastAckInput cfg i w
  | .finWait1 => finWait1Input cfg i seg w
  | .finWait2 => finWait2Input cfg i seg w
  | .timeWait => tcpSend cfg i .ackOnly 0 w
  | .closing => closingInput i w
  | .closed => w.drop

def foundInput (cfg : Config) (i : Fin nT) (seg : Segment) (w : Stack nT nU) : Stack nT nU :=
  let w := { w with uipFlags := Flags.none, uipLen := seg.len }
  if seg.rst then
    (xtcpdAppcall cfg (.tcp i) (withFlags { Flags.none with abort := true } (w.kill i))).drop
  else if ¬ (w.state i = .synSent ∧ seg.isSynAck) ∧ (0 < seg.len ∨ seg.syn ∨ seg.fin) ∧
      seg.seqno ≠ (w.tcp i).rcvNxt then
    tcpSend cfg i .ackOnly 0 w
  else stateInput cfg i seg (setPush seg (ackOutstanding i seg w))

def Segment.matches (seg : Segment) (c : TcpConn) : Bool :=
  !c.isClosed && seg.destport == c.lport && seg.srcport == c.rport && seg.srcipaddr == c.ripaddr

def foundListen (cfg : Config) (seg : Segment) (w : Stack nT nU) : Stack nT nU :=
  match unusedTcp w with
  | none => w.drop
  | some i =>
      let w := w.open (.tcp i) (.passive seg.destport)
      let w := w.setTcp i fun c =>
        { c with
          rto := uipRto
          timer := uipRto
          sa := 0
          sv := 4
          nrtx := 0
          lport := seg.destport
          rport := seg.srcport
          ripaddr := seg.srcipaddr
          tcpstateflags := ⟨.synRcvd, false⟩
          sndNxt := w.iss
          len := 1
          rcvNxt := seg.seqno + 1 }
      tcpSend cfg i .synAck 0 (setMss cfg i seg w)

def tcpInput (cfg : Config) (seg : Segment) (w : Stack nT nU) : Stack nT nU :=
  match (List.finRange nT).find? fun i => seg.matches (w.tcp i) with
  | some i => foundInput cfg i seg w
  | none =>
      if ¬ seg.isSyn then reset seg w
      else if seg.destport ∈ w.tables.listenports then foundListen cfg seg w
      else reset seg w

structure Datagram where
  srcipaddr : Ipaddr
  srcport : Nat
  destport : Nat
  len : Nat
  deriving DecidableEq, Repr

def isMulticast (a : Ipaddr) : Bool := a.b0 == 224

def Datagram.matches (d : Datagram) (c : UdpConn) : Bool :=
  c.lport != 0 && d.destport == c.lport && d.srcport == c.rport &&
    (d.srcipaddr == c.ripaddr || d.destport == 0x4400 || isMulticast c.ripaddr)

def udpFound (cfg : Config) (i : Fin nU) (flags : Flags) (w : Stack nT nU) : Stack nT nU :=
  xtcpdAppcall cfg (.udp i) { withFlags flags w with uipSlen := 0 }

-- The connection whose datagram is to be sent next, when the application gave one.
def udpSend (i : Fin nU) (w : Stack nT nU) : Option (Fin nU) × Stack nT nU :=
  if w.uipSlen = 0 then (none, w.drop) else (some i, { w with uipFlags := Flags.none })

def udpInput (cfg : Config) (d : Datagram) (w : Stack nT nU) : Option (Fin nU) × Stack nT nU :=
  let w := { w with uipLen := d.len, srcport := d.srcport, srcipaddr := d.srcipaddr }
  match (List.finRange nU).find? fun i => d.matches (w.udp i) with
  | some i => udpSend i (udpFound cfg i { Flags.none with newdata := true } w)
  | none =>
      if d.destport ∈ w.tables.udpListenports then
        match unusedUdp w with
        | none => (none, w.drop)
        | some i =>
            let w := (w.clear i).open (.udp i) (.passive d.destport)
            let w := w.setUdp i fun _ => ⟨d.srcipaddr, d.destport, d.srcport, false, false⟩
            udpSend i (udpFound cfg i { Flags.none with connected := true, newdata := true } w)
      else (none, w.drop)

def udpCall (cfg : Config) (i : Fin nU) (flags : Flags) (w : Stack nT nU) :
    Option (Fin nU) × Stack nT nU :=
  udpSend i (xtcpdAppcall cfg (.udp i)
    { withFlags flags w with uipLen := 0, uipSlen := 0 })

def udpPeriodic (cfg : Config) (i : Fin nU) (w : Stack nT nU) : Option (Fin nU) × Stack nT nU :=
  if (w.udp i).lport ≠ 0 then udpCall cfg i { Flags.none with poll := true } w else (none, w.drop)

def udpAckdata (cfg : Config) (i : Fin nU) (w : Stack nT nU) : Option (Fin nU) × Stack nT nU :=
  if (w.udp i).lport ≠ 0 then
    udpCall cfg i { Flags.none with ackdata := true }
      (w.setUdp i fun c => { c with udpSent := !c.udpSent })
  else (none, w.drop)

def udpArpEvent (cfg : Config) (i : Fin nU) (w : Stack nT nU) : Option (Fin nU) × Stack nT nU :=
  if (w.udp i).lport ≠ 0 ∧ (w.udp i).udpPendingArp then
    udpCall cfg i { Flags.none with rexmit := true }
      (w.setUdp i fun c => { c with udpPendingArp := !c.udpPendingArp })
  else (none, w.drop)

end Xtcp.Uip

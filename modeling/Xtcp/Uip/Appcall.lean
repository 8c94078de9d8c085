import Xtcp.Uip.Commands

namespace Xtcp.Uip
open Channel Listen

variable {nT nU : Nat}

def maxGuid : Nat := 200

def bumpGuid (guid : Nat) : Nat := if guid + 1 > maxGuid then 1 else guid + 1

-- none when the loop has not ended after as many turns.
def searchGuid (used : Nat → Bool) : Nat → Nat → Option Nat
  | 0, _ => none
  | turns + 1, guid => if used guid then searchGuid used turns (bumpGuid guid) else some guid

def Stack.protocol (_ : Stack nT nU) : Slot nT nU → Protocol
  | .tcp _ => .tcp
  | .udp _ => .udp

def Stack.lport (w : Stack nT nU) : Slot nT nU → Nat
  | .tcp i => (w.tcp i).lport
  | .udp i => (w.udp i).lport

def Stack.rport (w : Stack nT nU) : Slot nT nU → Nat
  | .tcp i => (w.tcp i).rport
  | .udp i => (w.udp i).rport

def Stack.ripaddr (w : Stack nT nU) : Slot nT nU → Ipaddr
  | .tcp i => (w.tcp i).ripaddr
  | .udp i => (w.udp i).ripaddr

def listeners (t : Tables) : Slot nT nU → List Listener
  | .tcp _ => t.tcpListeners
  | .udp _ => t.udpListeners

-- The link the connection belongs to, from the way it was opened.
def rightOwner (w : Stack nT nU) (slot : Slot nT nU) : Option Nat :=
  match w.origin slot with
  | some (.active linknum) => some linknum
  | some (.passive lport) => getListenerLinknum (listeners w.tables slot) lport
  | none => none

def initLinknum (w : Stack nT nU) (slot : Slot nT nU) : Option Nat :=
  if (w.app slot).s.connectRequest then (w.app slot).linknum
  else getListenerLinknum (listeners w.tables slot) (w.lport slot)

def initType (w : Stack nT nU) (slot : Slot nT nU) : Nat :=
  if (w.app slot).s.connectRequest then (w.app slot).conn.connectionType else serverConnection

def xtcpdInitState (w : Stack nT nU) (slot : Slot nT nU) : Stack nT nU :=
  let cleared := w.setApp slot fun _ => .zero
  match searchGuid (fun g => (lookupXtcpdState cleared g).isSome) (maxGuid + 1) w.guid with
  | none => cleared.deref
  | some guid =>
      { cleared.setApp slot fun _ =>
          { linknum := initLinknum w slot
            conn := { zeroConn with
              connectionType := initType w slot
              id := guid
              localPort := htons (w.lport slot)
              remotePort := htons (w.rport slot)
              protocol := (w.protocol slot).toWord
              remoteAddr := ipaddrWord (w.ripaddr slot) }
            s := { (ServerState.zero : ServerState nT nU) with uipConn := some slot } } with
        guid := guid
        owner := Function.update w.owner slot (rightOwner w slot)
        log := w.log ++ [.issued slot guid] }

def XtcpEvent.code (push : Bool) : XtcpEvent → Nat
  | .newConnection => 0
  | .recvData => 1
  | .pushData => 2
  | .requestData => if push then 3 else 2
  | .sentData => if push then 4 else 3
  | .resendData => if push then 5 else 4
  | .timedOut => if push then 6 else 5
  | .aborted => if push then 7 else 6
  | .closed => if push then 8 else 7
  | .poll => if push then 9 else 8

def Stack.wait (w : Stack nT nU) (slot : Slot nT nU) (event : XtcpEvent) (ready : Option Nat) :
    Stack nT nU :=
  { w with
    env := { w.env with waits := w.env.waits.tail }
    raising := some ⟨slot, event, ready⟩ }

-- xtcpd_service_clients_until_ready on behalf of an event of this slot.
def untilReady (cfg : Config) (slot : Slot nT nU) (event : XtcpEvent) (ready : Option Nat)
    (w : Stack nT nU) : Stack nT nU :=
  runCommands cfg (w.wait slot event ready) (w.env.waits.headD [])

def xtcpdSendEvent (cfg : Config) (slot : Slot nT nU) (event : XtcpEvent)
    (ready link : Option Nat) (w : Stack nT nU) : Stack nT nU :=
  let w := w.setConn slot fun c => { c with event := event.code cfg.pushNotification }
  { w with
    raising := none
    log := w.log ++ [.sent slot event ready link (w.app slot).conn (w.origin slot) (w.owner slot)
      (w.app slot).s.connectRequest] }

def xtcpdEvent (cfg : Config) (event : XtcpEvent) (slot : Slot nT nU) (w : Stack nT nU) :
    Stack nT nU :=
  match (w.app slot).linknum with
  | none => w
  | some ready =>
      let w := untilReady cfg slot event (some ready) w
      xtcpdSendEvent cfg slot event (some ready) (w.app slot).linknum w

-- The rounds of xtcpd_recv: the record, and a wait after each "not ready".
def recvRounds (cfg : Config) (slot : Slot nT nU) (link ready : Option Nat) :
    List Bool → Stack nT nU → Stack nT nU
  | false :: answers, w =>
      let w := xtcpdSendEvent cfg slot .recvData ready link w
      recvRounds cfg slot link link answers (untilReady cfg slot .recvData link w)
  | answers, w =>
      let w := xtcpdSendEvent cfg slot .recvData ready link w
      { w with env := { w.env with ready := answers.tail } }

def xtcpdRecv (cfg : Config) (slot : Slot nT nU) (ready : Nat) (w : Stack nT nU) : Stack nT nU :=
  let w := untilReady cfg slot .recvData (some ready) w
  let link := (w.app slot).linknum
  recvRounds cfg slot link (some ready) w.env.ready w

def xtcpdSend (cfg : Config) (slot : Slot nT nU) (event : XtcpEvent) (ready link : Option Nat)
    (mss : Nat) (w : Stack nT nU) : Nat × Stack nT nU :=
  let w := xtcpdSendEvent cfg slot event ready link
    (w.setConn slot fun c => { c with mss := mss })
  (w.env.lens.headD 0, { w with env := { w.env with lens := w.env.lens.tail } })

-- The channel is evaluated by the caller, before the wait.
def doXtcpdSend (cfg : Config) (slot : Slot nT nU) (event : XtcpEvent) (link mss : Nat)
    (w : Stack nT nU) : Nat × Stack nT nU :=
  xtcpdSend cfg slot event (some link) (some link) mss
    (untilReady cfg slot event (some link) w)

def uipSend (len : Nat) (w : Stack nT nU) : Stack nT nU :=
  if len > 0 then { w with uipSlen := len % 65536 } else w

def sendMss (cfg : Config) (w : Stack nT nU) : Slot nT nU → Nat
  | .tcp i => (w.tcp i).mss
  | .udp _ => cfg.clientBufSize

def uipClose (w : Stack nT nU) : Stack nT nU :=
  { w with uipFlags := { Flags.none with close := true } }

def uipAbort (w : Stack nT nU) : Stack nT nU :=
  { w with uipFlags := { Flags.none with abort := true } }

def uipStop (slot : Slot nT nU) (w : Stack nT nU) : Stack nT nU :=
  match slot with
  | .tcp i => w.setTcp i fun c =>
      { c with tcpstateflags := { c.tcpstateflags with stopped := true } }
  | .udp _ => w

-- A UDP connection is closed by giving up its local port.
def endConnection (cfg : Config) (slot : Slot nT nU) (tcpEnd : Stack nT nU → Stack nT nU)
    (w : Stack nT nU) : Stack nT nU :=
  match slot with
  | .tcp _ => tcpEnd w
  | .udp i => xtcpdEvent cfg .closed slot (w.setUdp i fun c => { c with lport := 0 })

def pollConnect (cfg : Config) (slot : Slot nT nU) (w : Stack nT nU) : Stack nT nU :=
  match slot with
  | .tcp _ => w
  | .udp _ =>
      (xtcpdEvent cfg .newConnection slot (xtcpdInitState w slot)).setS slot fun s =>
        { s with connectRequest := false }

def pollSend (cfg : Config) (slot : Slot nT nU) (w : Stack nT nU) : Stack nT nU :=
  let w := match (w.app slot).linknum with
    | none => w
    | some link =>
        let (len, w) := doXtcpdSend cfg slot .requestData link (sendMss cfg w slot) w
        uipSend len w
  w.setS slot fun s => { s with sendRequest := s.sendRequest - 1 }

def timerExpired (w : Stack nT nU) : Bool × Stack nT nU :=
  (w.env.expired.headD false, { w with env := { w.env with expired := w.env.expired.tail } })

def pollTimer (cfg : Config) (slot : Slot nT nU) (w : Stack nT nU) : Stack nT nU :=
  if (w.app slot).s.pollInterval = 0 then w
  else
    let (expired, w) := timerExpired w
    if expired then xtcpdEvent cfg .poll slot w else w

def pollAck (slot : Slot nT nU) (w : Stack nT nU) : Stack nT nU :=
  if (w.app slot).s.ackRequest then
    { w.setS slot fun s => { s with ackRequest := false } with
      uipFlags := { w.uipFlags with newdata := true }
      uipSlen := 0 }
  else w

def uipXtcpdHandlePoll (cfg : Config) (slot : Slot nT nU) (w : Stack nT nU) : Stack nT nU :=
  let w := pollAck slot w
  if (w.app slot).s.abortRequest then
    (endConnection cfg slot uipAbort w).setS slot fun s => { s with abortRequest := false }
  else if (w.app slot).s.closeRequest then
    (endConnection cfg slot uipClose w).setS slot fun s => { s with closeRequest := false }
  else if (w.app slot).s.connectRequest then pollConnect cfg slot w
  else if (w.app slot).s.sendRequest > 0 then pollSend cfg slot w
  else pollTimer cfg slot w

def udpSource (slot : Slot nT nU) (w : Stack nT nU) : Stack nT nU :=
  match slot with
  | .tcp _ => w
  | .udp _ =>
      if w.uipFlags.newdata then
        w.setConn slot fun c =>
          { c with remotePort := htons w.srcport, remoteAddr := ipaddrWord w.srcipaddr }
      else w

def onConnected (cfg : Config) (slot : Slot nT nU) (w : Stack nT nU) : Stack nT nU :=
  if w.uipFlags.connected then xtcpdEvent cfg .newConnection slot (xtcpdInitState w slot) else w

def onNewdata (cfg : Config) (slot : Slot nT nU) (w : Stack nT nU) : Stack nT nU :=
  match (w.app slot).linknum with
  | none => w
  | some ready =>
      let w := xtcpdRecv cfg slot ready w
      if (w.app slot).s.ackRecvMode then uipStop slot w else w

def onAcked (cfg : Config) (slot : Slot nT nU) (w : Stack nT nU) : Stack nT nU :=
  if w.uipFlags.ackdata then
    match (w.app slot).linknum with
    | none => w
    | some link =>
        let (len, w) := doXtcpdSend cfg slot .sentData link (sendMss cfg w slot) w
        uipSend len w
  else w

def onRexmit (cfg : Config) (slot : Slot nT nU) (w : Stack nT nU) : Stack nT nU :=
  if w.uipFlags.rexmit then
    match (w.app slot).linknum with
    | none => w
    | some ready =>
        let w := untilReady cfg slot .resendData (some ready) w
        let (len, w) := xtcpdSend cfg slot .resendData (some ready) (w.app slot).linknum
          (sendMss cfg w slot) w
        uipSend len w
  else w

def onPoll (cfg : Config) (slot : Slot nT nU) (w : Stack nT nU) : Stack nT nU :=
  if w.uipFlags.poll then uipXtcpdHandlePoll cfg slot w else w

def onPush (cfg : Config) (slot : Slot nT nU) (w : Stack nT nU) : Stack nT nU :=
  if cfg.pushNotification && w.uipFlags.push then xtcpdEvent cfg .pushData slot w else w

def onClosed (cfg : Config) (slot : Slot nT nU) (w : Stack nT nU) : Stack nT nU :=
  if w.uipFlags.close && !(w.app slot).s.closed then
    xtcpdEvent cfg .closed slot (w.setS slot fun s => { s with closed := true })
  else w

def appcallRest (cfg : Config) (slot : Slot nT nU) (w : Stack nT nU) : Stack nT nU :=
  onClosed cfg slot (onPush cfg slot (onPoll cfg slot (onRexmit cfg slot (onAcked cfg slot w))))

def dhcpcPort (port : Nat) : Bool := port == htons 67 || port == htons 68

def dhcpcAppcall (w : Stack nT nU) : Stack nT nU :=
  uipSend (w.env.lens.headD 0) { w with env := { w.env with lens := w.env.lens.tail } }

def isDhcpc (w : Stack nT nU) : Slot nT nU → Bool
  | .tcp _ => false
  | .udp i => dhcpcPort (w.udp i).lport

def appcallData (cfg : Config) (slot : Slot nT nU) (w : Stack nT nU) : Stack nT nU :=
  if w.uipFlags.newdata && 0 < w.uipLen then appcallRest cfg slot (onNewdata cfg slot w)
  else if w.uipFlags.abort then xtcpdEvent cfg .aborted slot w
  else if w.uipFlags.timedout then xtcpdEvent cfg .timedOut slot w
  else appcallRest cfg slot w

def xtcpdAppcall (cfg : Config) (slot : Slot nT nU) (w : Stack nT nU) : Stack nT nU :=
  if isDhcpc w slot then dhcpcAppcall w
  else appcallData cfg slot (onConnected cfg slot (udpSource slot w))

end Xtcp.Uip

import Xtcp.Pip.Tcp.State

namespace Xtcp.Pip.Tcp
open Serial

variable (cfg : Config) (env : Env)

section Incoming

variable (seg : Segment)

def incomingListen (c : TcpConnection) : TcpConnection :=
  if seg.flags.rst then c
  else if seg.flags.ack then c.note (.bounced (bounceRST env seg false))
  else if seg.flags.syn then
    let c := c.setTx fun q => { q with free := int (q.free - 1) }
    let c := { c with rcvNXT := seg.seq + 1, sndNXT := env.now, sndUNA := env.now - 1 }
    let c := pipOutgoingTCP [] { syn := true, ack := true } ((c.note (.irs seg.seq)).note (.iss env.now))
    { c with sndNXT := c.sndNXT + 1 }.enter .synrcvd
  else c

-- Without a return behind the RST a SYN in the same segment is looked at too.
def incomingSynsent (c : TcpConnection) : TcpConnection :=
  let c := { c with sndWND := seg.window.toNat }
  if seg.flags.ack ∧ outside c.sndUNA c.sndNXT seg.ack then
    let c := c.note (.bounced (bounceRST env seg false))
    let c := if c.appStatus ≠ .notWaiting then appSendError c else c
    c.enter .closed
  else
    let c := if seg.flags.ack then c.acknowledge seg.ack else c
    let c := if seg.flags.rst ∧ seg.flags.ack then (appSendError c).enter .closed else c
    if seg.flags.syn then
      let c := { c with rcvNXT := seg.seq + 1 }.note (.irs seg.seq)
      let c := if seg.flags.ack then c.acknowledge seg.ack else c
      let c := appSendAcknowledge c
      if c.sndUNA = seg.ack then (pipOutgoingTCP [] { ack := true } c).enter .estab
      else (pipOutgoingTCP [] { syn := true, ack := true } c).enter .synrcvd
    else c

def incomingRST (c : TcpConnection) : TcpConnection :=
  let c : TcpConnection := match c.state with
    | .synrcvd => if c.appStatus = .accepting then appSendClose c else c
    | .estab | .finwait1 | .finwait2 | .closewait =>
        if c.appWaiting.isSome then appSendError c else c
    | _ => c
  c.enter .closed

def incomingSYN (c : TcpConnection) : TcpConnection :=
  let c := if c.appWaiting.isSome then appSendError c else c
  c.enter .closed

def establish (c : TcpConnection) : TcpConnection :=
  let c := { c with sndUNA := c.sndUNA + 1 }.enter .estab
  if c.appStatus = .accepting then appSendAcknowledge c else c

def incomingLastAck (c : TcpConnection) : TcpConnection :=
  if c.sndNXT + 1 = seg.ack then
    let c := c.enter .closed
    if c.appStatus = .closing then appSendAcknowledge c else c
  else c

def takeAck (c : TcpConnection) : Option TcpConnection :=
  let extraBytes := (seg.ack - c.sndUNA).toInt
  let c := (c.acknowledge seg.ack).setTx fun q => { q with free := int (q.free + extraBytes) }
  if c.tx.free = extraBytes ∧ c.appStatus = .writing then do
    let c ← copyDataFromWrite2 cfg env c
    loadOutgoingData cfg env { c with appStatus := .notWaiting }
  else some c

-- Whether the FIN, if there is one, is taken with the data.
def incomingData (c : TcpConnection) : Option (Bool × TcpConnection) :=
  if seg.length ≠ 0 then
    (storeIncomingData cfg env seg c).map fun r =>
      (seg.flags.fin && r.1, pipOutgoingTCP [] { ack := true } r.2)
  else some (seg.flags.fin, c)

def incomingFIN (c : TcpConnection) : TcpConnection :=
  let c : TcpConnection := match c.state with
    | .synrcvd | .estab =>
        (pipOutgoingTCP [] { ack := true } { c with rcvNXT := c.rcvNXT + 1 }).enter .closewait
    | .finwait1 => c.enter .closing
    | .finwait2 =>
        (pipOutgoingTCP [] { ack := true } { c with rcvNXT := c.rcvNXT + 1 }).enter .timewait
    | _ => c
  if c.appStatus = .writing ∨ c.appStatus = .reading then appSendClose c else c

def processData (c : TcpConnection) : Option TcpConnection :=
  (incomingData cfg env seg c).map fun r => if r.1 then incomingFIN r.2 else r.2

def afterAck (c : TcpConnection) : Option TcpConnection :=
  if c.state = .finwait1 ∧ c.tx.free = cfg.bufsizeTx + 1 then some (c.enter .finwait2)
  else if c.state = .closing then
    let c := c.enter .timewait
    some (if c.appStatus ≠ .notWaiting then appSendClose c else c)
  else processData cfg env seg c

def incomingAck (c : TcpConnection) : Option TcpConnection :=
  if c.state = .lastack then some (incomingLastAck seg c)
  else if after c.sndUNA seg.ack then some c
  else if after seg.ack c.sndNXT then some (pipOutgoingTCP [] { ack := true } c)
  else (takeAck cfg env seg c).bind (afterAck cfg env seg)

def incomingSynchronized (c : TcpConnection) : Option TcpConnection :=
  if seg.seq ≠ c.rcvNXT then some (pipOutgoingTCP [] { ack := true } c)
  else if seg.flags.rst then some (incomingRST c)
  else if seg.flags.syn then some (incomingSYN c)
  else if seg.flags.ack = false then some c
  else
    let c := { c with sndWND := seg.window.toNat }
    if c.state = .synrcvd then
      if outside c.sndUNA c.sndNXT seg.ack then
        some (c.note (.bounced (bounceRST env seg true)))
      else incomingAck cfg env seg (establish c)
    else incomingAck cfg env seg c

def incomingTimewait (c : TcpConnection) : TcpConnection :=
  if seg.flags.fin then
    (pipOutgoingTCP [] { ack := true } { c with rcvNXT := c.rcvNXT + 1 }).enter .timewait
  else c

-- The switch of pipIncomingTCP, for the connection that has been found.
def incoming (c : TcpConnection) : Option TcpConnection :=
  match c.state with
  | .closed => some c
  | .listen => some (incomingListen env seg c)
  | .synsent => some (incomingSynsent env seg c)
  | .timewait | .timewait0 => some (incomingTimewait seg c)
  | _ => incomingSynchronized cfg env seg c

end Incoming

section TimeOut

def expire (c : TcpConnection) : TcpConnection :=
  let c := c.enter .closed
  if c.appStatus ≠ .notWaiting then appSendError c else c

def notAcknowledged (c : TcpConnection) : Int :=
  int (cfg.bufsizeTx - int (c.tx.length + c.tx.free))

def rewind (n : Int) (c : TcpConnection) : TcpConnection :=
  { c with sndNXT := c.sndNXT - BitVec.ofInt 32 n }.setTx fun q =>
    { q with length := int (q.length + n), rd := mask cfg.bufsizeTx (q.rd - n) }

-- Of the switch: what is left of timeouts, t2 or 0, and the connection.
def resend (t2 : Word) (c : TcpConnection) : TcpConnection :=
  match c.state with
  | .timewait => { c with timeouts := t2 }.enter .timewait0
  | .timewait0 =>
      let c := c.enter .closed
      { (if c.appStatus ≠ .notWaiting then appSendClose c else c) with timeouts := 0 }
  | .synsent | .synrcvd =>
      if after c.sndNXT c.sndUNA then
        let flags : Flags := if c.state = .synsent then { syn := true } else { syn := true, ack := true }
        let c := pipOutgoingTCP [] flags { c with sndNXT := c.sndNXT - 1 }
        { c with sndNXT := c.sndNXT + 1, timeouts := t2 }
      else { c with timeouts := 0 }
  | .finwait1 | .finwait2 | .closewait | .closing | .lastack =>
      if after (c.sndNXT + 1) c.sndUNA then
        { pipOutgoingTCP [] { fin := true, ack := true } c with timeouts := t2 }
      else { c with timeouts := 0 }
  | _ => { c with timeouts := 0 }

-- The body of the loop over the connections.
def timeOut (c : TcpConnection) : Option TcpConnection :=
  if c.timeouts = 0 then some c
  else
    let t := c.timeouts
    let t2 := t + 1
    let c := { c with timeouts := t2 }
    if t &&& t2 ≠ 0 then some c
    else
      let c := if tcpMaxTimeout.sle t2 then expire c else c
      if 0 < notAcknowledged cfg c then
        (loadOutgoingData cfg env (rewind cfg (notAcknowledged cfg c) c)).map fun c =>
          { c with timeouts := t2 }
      else some (resend t2 c)

end TimeOut

section Application

inductive Request where
  | accept
  | connect (remoteIP remotePort localPort : Word)
  | close
  | read
  | write
  deriving DecidableEq, Repr

def initConnection (st : State) (c : TcpConnection) : TcpConnection :=
  { c.note .opened with
    rx := { c.rx with rd := 0, wr := 0, free := cfg.bufsizeRx, length := 0 }
    tx := { c.tx with rd := 0, wr := 0, free := cfg.bufsizeTx, length := 0 }
    rcvWND := cfg.bufsizeRx / 2
    sndWND := 0 }.enter st

def inputShortRev (x : Word) : BitVec 16 := (byterev x >>> 16).truncate 16

variable (app : Chanend)

def doAccept (c : TcpConnection) : TcpConnection :=
  setAppWaiting app .accepting (initConnection cfg .listen c)

def doConnect (remoteIP remotePort localPort : Word) (c : TcpConnection) : TcpConnection :=
  let c := initConnection cfg .synsent c
  let c := { c with
    localIP := env.myIP
    remoteIP := remoteIP
    remotePortRev := inputShortRev remotePort
    localPortRev := inputShortRev localPort
    sndNXT := env.now
    sndUNA := env.now - 1 }.note (.iss env.now)
  let c := pipOutgoingTCP [] { syn := true } c
  setAppWaiting app .connecting { c with sndNXT := c.sndNXT + 1 }

def doClose (c : TcpConnection) : TcpConnection :=
  match c.state with
  | .closed => answer app .closing .ack c
  | .synsent | .listen => answer app .closing .ack (c.enter .closed)
  | .synrcvd | .estab =>
      let c := (c.enter .finwait1).note (.finished c.sndNXT)
      let c := pipOutgoingTCP [] { fin := true, ack := true } c
      setAppWaiting app .closing { c with sndNXT := c.sndNXT + 1 }
  | .lastack | .timewait | .timewait0 | .finwait1 | .finwait2 | .closing => c
  | .closewait =>
      let c := (c.enter .lastack).note (.finished c.sndNXT)
      setAppWaiting app .closing (pipOutgoingTCP [] { fin := true, ack := true } c)

def doRead (c : TcpConnection) : Option TcpConnection :=
  match c.state with
  | .estab =>
      if c.rx.free ≠ (cfg.bufsizeRx : Int) then copyDataForRead cfg env (some app) c
      else some (setAppWaiting app .reading c)
  | .closewait => some (answer app .reading .closed c)
  | _ => some (answer app .reading .error c)

def doWrite (c : TcpConnection) : Option TcpConnection :=
  match c.state with
  | .estab =>
      if c.tx.free ≠ 0 then
        (copyDataFromWrite cfg env (some app) c).bind
          (loadOutgoingData cfg { env with answer := env.other })
      else some (setAppWaiting app .writing c)
  | .closewait => some (answer app .writing .closed c)
  | _ => some (answer app .writing .error c)

def pipApplicationTCP (r : Request) (c : TcpConnection) : Option TcpConnection :=
  let c := c.note (.requested app)
  match r with
  | .accept => some (doAccept cfg app c)
  | .connect remoteIP remotePort localPort =>
      some (doConnect cfg env app remoteIP remotePort localPort c)
  | .close => some (doClose app c)
  | .read => doRead cfg env app c
  | .write => doWrite cfg env app c

end Application

end Xtcp.Pip.Tcp

import Xtcp.Library.Segment
import Xtcp.Uip.Wire

namespace Xtcp.Stream
open Uip Channel Segment

abbrev Byte := BitVec 8

structure Packet where
  seg : Segment
  data : List Byte
  deriving DecidableEq

-- What comes in may be a part of what was sent.
def Packet.cut (start len : Nat) (p : Packet) : Packet where
  seg := { p.seg with
    seqno := p.seg.seqno + BitVec.ofNat 32 start
    len := ((p.data.drop start).take len).length }
  data := (p.data.drop start).take len

-- An open connection of the default build with its xtcpd_state. handed: how much of its stream the
-- client has handed over. received: what the client has been given.
structure Endpoint where
  conn : TcpConn
  hostaddr : Ipaddr
  sendRequest : Nat
  ackRequest : Bool
  closeRequest : Bool
  abortRequest : Bool
  ackRecvMode : Bool
  handed : Nat
  received : List Byte
  wire : List Packet

-- The commands for a TCP connection but those that bind it.
inductive Request where
  | initSend
  | ackRecvMode
  | ackRecv
  | pause
  | unpause
  | close
  | abort
  deriving DecidableEq, Repr

-- The client in one call of the application: the commands that are served in each wait for it,
-- what it gives when it is asked for data, and whether it gives again what it is to resend; and
-- what uip_buf still holds.
structure Client where
  recv : List Request
  send : List Request
  push : List Request
  closed : List Request
  len : Nat
  resend : Bool
  buf : Nat → Byte

def Endpoint.setConn (e : Endpoint) (f : TcpConn → TcpConn) : Endpoint :=
  { e with conn := f e.conn }

def Endpoint.state (e : Endpoint) : TcpState := e.conn.tcpstateflags.state

def Endpoint.stopped (e : Endpoint) : Bool := e.conn.tcpstateflags.stopped

def Endpoint.setState (e : Endpoint) (st : TcpState) : Endpoint :=
  e.setConn fun c => { c with tcpstateflags := ⟨st, false⟩ }

def Endpoint.setStopped (e : Endpoint) (stopped : Bool) : Endpoint :=
  e.setConn fun c => { c with tcpstateflags := { c.tcpstateflags with stopped := stopped } }

def request (e : Endpoint) : Request → Endpoint
  | .initSend => { e with sendRequest := e.sendRequest + 1 }
  | .ackRecvMode => { e with ackRecvMode := true }
  | .ackRecv => { e.setStopped false with ackRequest := true }
  | .pause => e.setStopped true
  | .unpause => { e.setStopped false with ackRequest := true }
  | .close => { e with closeRequest := true }
  | .abort => { e with abortRequest := true }

def serve (rs : List Request) (e : Endpoint) : Endpoint := rs.foldl request e

def write (buf : Nat → Byte) (data : List Byte) : Nat → Byte := fun j => data.getD j (buf j)

def tcpSend (cfg : Config) (flags : Ctl) (data : List Byte) (e : Endpoint) : Endpoint :=
  { e with wire := e.wire ++ [⟨sentSegment cfg e.conn flags data.length e.hostaddr, data⟩] }

def handOver (slen : Nat) (e : Endpoint) : Endpoint := { e with handed := e.handed + slen }

-- uip_mss is read before the wait.
def doXtcpdSend (stream : Nat → Byte) (client : Client) (e : Endpoint) :
    Nat × (Nat → Byte) × Endpoint :=
  let chunk := slice stream e.handed (min client.len e.conn.mss)
  (chunk.length, write client.buf chunk, serve client.send e)

def apprexmit (cfg : Config) (newdata : Bool) (slen : Nat) (buf : Nat → Byte) (e : Endpoint) :
    Endpoint :=
  if 0 < slen ∧ 0 < e.conn.len then tcpSend cfg .ackPsh (slice buf 0 e.conn.len) e
  else if newdata then tcpSend cfg .ackOnly [] e
  else e

def appsend (cfg : Config) (flags : Flags) (slen : Nat) (buf : Nat → Byte) (e : Endpoint) :
    Endpoint :=
  if flags.abort then tcpSend cfg .rstAck [] (e.setState .closed)
  else if flags.close then
    tcpSend cfg .finAck [] ((e.setConn fun c => { c with len := 1, nrtx := 0 }).setState .finWait1)
  else
    let e := e.setConn fun c => { c with nrtx := 0 }
    if 0 < slen then
      let e := if flags.ackdata then e.setConn fun c => { c with len := 0 } else e
      if e.conn.len = 0 then
        let slen := min slen e.conn.mss
        apprexmit cfg flags.newdata slen buf (e.setConn fun c => { c with len := slen })
      else apprexmit cfg flags.newdata e.conn.len buf e
    else apprexmit cfg flags.newdata 0 buf e

def xtcpdRecv (data : List Byte) (client : Client) (e : Endpoint) : Endpoint :=
  let e := serve client.recv e
  let e := { e with received := e.received ++ data }
  if e.ackRecvMode then e.setStopped true else e

-- xtcpd_appcall for a segment.
def appcall (cfg : Config) (stream : Nat → Byte) (p : Packet) (client : Client) (flags : Flags)
    (e : Endpoint) : Nat × (Nat → Byte) × Endpoint :=
  let e := if flags.newdata then xtcpdRecv p.data client e else e
  let (slen, buf, e) :=
    if flags.ackdata then
      let (slen, buf, e) := doXtcpdSend stream client e
      (slen, buf, handOver slen e)
    else (0, client.buf, e)
  (slen, buf, if cfg.pushNotification && flags.push then serve client.push e else e)

def takeWindow (seg : Segment) (e : Endpoint) : Endpoint :=
  e.setConn fun c =>
    { c with mss := if c.initialmss < seg.wnd ∨ seg.wnd = 0 then c.initialmss else seg.wnd }

def addRcvNxt (n : Nat) (e : Endpoint) : Endpoint :=
  e.setConn fun c => { c with rcvNxt := c.rcvNxt + BitVec.ofNat 32 n }

def finInput (cfg : Config) (stream : Nat → Byte) (p : Packet) (client : Client) (acked : Bool)
    (e : Endpoint) : Endpoint :=
  if e.conn.len ≠ 0 then e
  else
    let flags := { Flags.none with
      ackdata := acked, newdata := !p.data.isEmpty, push := p.seg.psh, close := true }
    let (_, _, e) := appcall cfg stream p client flags (addRcvNxt (1 + p.data.length) e)
    let e := serve client.closed e
    tcpSend cfg .finAck [] ((e.setConn fun c => { c with len := 1, nrtx := 0 }).setState .lastAck)

def establishedInput (cfg : Config) (stream : Nat → Byte) (p : Packet) (client : Client)
    (acked : Bool) (e : Endpoint) : Endpoint :=
  if p.seg.fin && !e.stopped then finInput cfg stream p client acked e
  else
    let newdata := !p.data.isEmpty && (cfg.acceptAfterPause || !e.stopped)
    let flags := { Flags.none with ackdata := acked, newdata := newdata, push := p.seg.psh }
    let e := takeWindow p.seg (if newdata then addRcvNxt p.data.length e else e)
    if newdata || acked then
      let (slen, buf, e) := appcall cfg stream p client flags e
      appsend cfg flags slen buf e
    else e

def acknowledges (seg : Segment) (e : Endpoint) : Bool :=
  seg.ack && 0 < e.conn.len && seg.ackno == e.conn.sndNxt + BitVec.ofNat 32 e.conn.len

-- The label found, for a connection that is established.
def segmentInput (cfg : Config) (stream : Nat → Byte) (p : Packet) (client : Client)
    (e : Endpoint) : Endpoint :=
  if p.seg.rst then e.setState .closed
  else if (p.data ≠ [] ∨ p.seg.syn ∨ p.seg.fin) ∧ p.seg.seqno ≠ e.conn.rcvNxt then
    tcpSend cfg .ackOnly [] e
  else
    let acked := acknowledges p.seg e
    establishedInput cfg stream p client acked (if acked then e.setConn ackConn else e)

-- A TCP connection has no poll interval.
def handlePoll (stream : Nat → Byte) (client : Client) (e : Endpoint) :
    Flags × Nat × (Nat → Byte) × Endpoint :=
  let flags := { Flags.none with poll := true, newdata := e.ackRequest }
  let e := { e with ackRequest := false }
  if e.abortRequest then
    ({ Flags.none with abort := true }, 0, client.buf, { e with abortRequest := false })
  else if e.closeRequest then
    ({ Flags.none with close := true }, 0, client.buf, { e with closeRequest := false })
  else if 0 < e.sendRequest then
    let (slen, buf, e) := doXtcpdSend stream client e
    (flags, slen, buf, handOver slen { e with sendRequest := e.sendRequest - 1 })
  else (flags, 0, client.buf, e)

def poll (cfg : Config) (stream : Nat → Byte) (client : Client) (e : Endpoint) : Endpoint :=
  let (flags, slen, buf, e) := handlePoll stream client e
  appsend cfg flags slen buf e

def pollConn (cfg : Config) (stream : Nat → Byte) (client : Client) (e : Endpoint) : Endpoint :=
  if e.conn.len = 0 then poll cfg stream client e else e

def rexmit (cfg : Config) (stream : Nat → Byte) (client : Client) (e : Endpoint) : Endpoint :=
  let chunk := if client.resend then slice stream (e.handed - e.conn.len) e.conn.len else []
  apprexmit cfg false chunk.length (write client.buf chunk) (serve client.send e)

def outstandingTimer (cfg : Config) (stream : Nat → Byte) (client : Client) (e : Endpoint) :
    Endpoint :=
  let timer := e.conn.timer
  let e := e.setConn fun c => { c with timer := c.timer - 1 }
  if timer = 0 then
    if e.conn.nrtx = maxRtx then
      tcpSend cfg .rstAck [] (serve client.closed (e.setState .closed))
    else
      rexmit cfg stream client
        (e.setConn fun c => { c with timer := rexmitTimer c.nrtx, nrtx := c.nrtx + 1 })
  else e

def periodic (cfg : Config) (stream : Nat → Byte) (client : Client) (e : Endpoint) : Endpoint :=
  if e.conn.len ≠ 0 then outstandingTimer cfg stream client e else poll cfg stream client e

inductive Event where
  | arrive (k start len : Nat) (client : Client)
  | checkConnectionPoll (client : Client)
  | periodicTimer (client : Client)
  | commands (rs : List Request)

-- sent: what the peer has sent. The closing states are not followed.
def act (cfg : Config) (stream : Nat → Byte) (sent : List Packet) (e : Endpoint) (event : Event) :
    Endpoint :=
  if e.state ≠ .established then e
  else
    match event with
    | .arrive k start len client =>
      match sent[k]? with
      | none => e
      | some p => segmentInput cfg stream (p.cut start len) client e
    | .checkConnectionPoll client => pollConn cfg stream client e
    | .periodicTimer client => periodic cfg stream client e
    | .commands rs => serve rs e

-- Two hosts and what each has sent, which may arrive at any time and any number of times.
structure Pair where
  left : Endpoint
  right : Endpoint

inductive Side where
  | left
  | right
  deriving DecidableEq, Repr

def step (cfg : Config) (streams : Side → Nat → Byte) (s : Pair) : Side × Event → Pair
  | (.left, event) => { s with left := act cfg (streams .left) s.right.wire s.left event }
  | (.right, event) => { s with right := act cfg (streams .right) s.left.wire s.right event }

def run (cfg : Config) (streams : Side → Nat → Byte) (s : Pair) (events : List (Side × Event)) :
    Pair :=
  events.foldl (step cfg streams) s

theorem Packet.cut_all (p : Packet) (h : p.seg.len = p.data.length) :
    p.cut 0 p.data.length = p := by
  rw [Packet.cut, List.drop_zero, List.take_length, ← h, BitVec.add_zero]

-- What the other host reads of the frames that a segment is sent in is pieces of it.
theorem frames_are_pieces (cfg : Config) (c : TcpConn) (flags : Ctl) (data : List Byte)
    (hostaddr : Ipaddr) (ipid : BitVec 16) (eth buf : Halfword.Bytes) (hmss : cfg.tcpMss < 65536)
    (hwindow : cfg.receiveWindow < 65536) (hports : c.lport < 65536 ∧ c.rport < 65536)
    (hlen : data.length + 54 < 65536) (hfit : data.length ≤ cfg.clientBufSize)
    (hsyn : flags.syn → data.length = 0) (hbuf : slice buf 54 data.length = data) :
    ∀ f ∈ uipSplitOutput cfg.clientBufSize ((segmentLen flags data.length).toNat + 14)
        (ethHeader eth (tcpSendBuf cfg c flags data.length hostaddr ipid buf)),
      ∃ start len, ∃ q : Packet, Arrives c.ripaddr f q.seg q.data ∧
        q = Packet.cut start len ⟨sentSegment cfg c flags data.length hostaddr, data⟩ := by
  have hcrosses := crosses_sentSegment cfg c flags data.length hostaddr ipid eth buf hmss hwindow
    hports hlen hfit hsyn
  rw [hbuf] at hcrosses
  intro f hf
  rcases hcrosses with ⟨g, hframe, hg⟩ | ⟨f₁, f₂, data₁, data₂, hframes, hdata, h₁, h₂⟩
  · rw [hframe, List.mem_singleton] at hf
    subst hf
    exact ⟨0, data.length, ⟨sentSegment cfg c flags data.length hostaddr, data⟩, hg,
      (Packet.cut_all _ rfl).symm⟩
  · have htake : data.take data₁.length = data₁ := by rw [← hdata, List.take_left']; rfl
    have hdrop : (data.drop data₁.length).take data₂.length = data₂ := by
      rw [← hdata, List.drop_left', List.take_length]; rfl
    rw [hframes] at hf
    rcases List.mem_pair.mp hf with rfl | rfl
    · refine ⟨0, data₁.length, ⟨_, data₁⟩, h₁, ?_⟩
      rw [Packet.cut, List.drop_zero, htake, BitVec.add_zero]
    · refine ⟨data₁.length, data₂.length, ⟨_, data₂⟩, h₂, ?_⟩
      rw [Packet.cut, hdrop]

end Xtcp.Stream

import Xtcp.Library.Segment
import Xtcp.Uip.Process

namespace Xtcp.Sliding
open Uip Channel Segment

abbrev Byte := BitVec 8

-- The build with UIP_SLIDING_WINDOW and XTCP_ENABLE_PARTIAL_PACKET_ACK. UIP_TCP_MSS is
-- UIP_BUFSIZE less the headers, and uip_len counts UIP_BUFSIZE in 16 bits.
structure Config where
  tcpMss : Nat
  splitThreshold : Nat
  fits : tcpMss < 65535

def Config.actualThreshold (cfg : Config) : Nat := max cfg.splitThreshold 4

-- handed: how much of the stream the client had handed over when the segment was sent.
structure Sent where
  seqno : BitVec 32
  data : List Byte
  handed : Nat
  deriving DecidableEq, Repr

-- One entry of uip_conns with its xtcpd_state. iss, handed and wire are about the connection
-- that it holds now, which has a link.
structure Window where
  conn : TcpConn
  midpoint : BitVec 8
  acceptsPartialAck : Bool
  sendRequest : Nat
  iss : BitVec 32
  handed : Nat
  wire : List Sent
  deriving DecidableEq, Repr

-- The commands for the connection that are served in one wait.
structure Served where
  initSends : Nat
  acceptPartialAck : Bool
  deriving DecidableEq, Repr

-- The client in one call of the application: what it asks for in the waits of xtcpd_recv and
-- of the send, how many bytes it then returns; and what uip_buf still holds.
structure Client where
  recv : Served
  send : Served
  len : Nat
  buf : Nat → Byte

-- A segment that neither resets nor closes.
structure Arrival where
  seqno : BitVec 32
  ackno : BitVec 32
  syn : Bool
  ack : Bool
  len : Nat
  wnd : Nat
  mssOption : Option Nat
  deriving DecidableEq, Repr

def Window.setConn (w : Window) (f : TcpConn → TcpConn) : Window := { w with conn := f w.conn }

def Window.state (w : Window) : TcpState := w.conn.tcpstateflags.state

def Window.setState (w : Window) (st : TcpState) : Window :=
  w.setConn fun c => { c with tcpstateflags := ⟨st, false⟩ }

def serve (s : Served) (w : Window) : Window :=
  { w with
    sendRequest := w.sendRequest + s.initSends
    acceptsPartialAck := w.acceptsPartialAck || s.acceptPartialAck }

def write (buf : Nat → Byte) (data : List Byte) : Nat → Byte := fun j => data.getD j (buf j)

def memmove (buf : Nat → Byte) (start len : Nat) : Nat → Byte :=
  fun j => if j < len then buf (start + j) else buf j

-- conn.outstanding, as the client is told it.
def outstanding (w : Window) : Nat := if w.conn.len = 1 then 0 else w.conn.len

def refuses (w : Window) : Bool := !w.acceptsPartialAck && 1 < w.conn.len

-- The client's chunk begins with the outstanding bytes; those are dropped.
def doXtcpdSend (stream : Nat → Byte) (client : Client) (w : Window) :
    Nat × (Nat → Byte) × Window :=
  if refuses w then (0, client.buf, w)
  else
    let chunk := slice stream (w.handed - outstanding w) (min client.len w.conn.mss)
    let buf := write client.buf chunk
    let w' := serve client.send w
    if outstanding w ≠ 0 ∧ outstanding w < chunk.length then
      (chunk.length - outstanding w,
        memmove buf (outstanding w) (chunk.length - outstanding w), w')
    else if 0 < outstanding w then (0, buf, w')
    else (chunk.length, buf, w')

def handOver (slen : Nat) (w : Window) : Window := { w with handed := w.handed + slen }

def splitOutput (doSplit : Bool) (seqno : BitVec 32) (data : List Byte) (w : Window) : Window :=
  if doSplit then
    let len1 := data.length / 2 / 4 * 4
    { w with wire := w.wire ++ [⟨seqno, data.take len1, w.handed⟩,
        ⟨seqno + BitVec.ofNat 32 len1, data.drop len1, w.handed⟩] }
  else { w with wire := w.wire ++ [⟨seqno, data, w.handed⟩] }

def tcpSend (doSplit : Bool) (slen len : Nat) (buf : Nat → Byte) (w : Window) : Window :=
  let data := slice buf 0 len
  if w.midpoint ≠ 0 ∧ slen ≠ 0 then
    { splitOutput doSplit (w.conn.sndNxt + w.midpoint.setWidth 32) data w with midpoint := 0 }
  else if doSplit = false ∧ slen ≠ 0 then
    { splitOutput doSplit w.conn.sndNxt data w with
      midpoint := BitVec.ofNat 8 slen
      sendRequest := w.sendRequest + 1 }
  else splitOutput doSplit w.conn.sndNxt data w

-- Without data at most a bare ACK is sent.
def apprexmit (doSplit : Bool) (slen : Nat) (buf : Nat → Byte) (w : Window) : Window :=
  if 0 < slen ∧ 0 < w.conn.len then tcpSend doSplit slen w.conn.len buf w else w

def appsend (cfg : Config) (ackdata : Bool) (slen : Nat) (buf : Nat → Byte) (w : Window) : Window :=
  let w := w.setConn fun c => { c with nrtx := 0 }
  if 0 < slen then
    if w.midpoint ≠ 0 then
      tcpSend false slen slen buf (w.setConn fun c => { c with len := (c.len + slen) % 65536 })
    else
      let doSplit := decide (cfg.actualThreshold < slen)
      let w := if ackdata then w.setConn fun c => { c with len := 0 } else w
      if w.conn.len = 0 then
        let slen := min slen w.conn.mss
        apprexmit doSplit slen buf (w.setConn fun c => { c with len := slen })
      else apprexmit doSplit w.conn.len buf w
  else apprexmit false 0 buf w

def ackDiff (seg : Arrival) (w : Window) : Int :=
  (w.conn.sndNxt + BitVec.ofNat 32 w.conn.len - seg.ackno).toInt

def acknowledges (seg : Arrival) (w : Window) : Bool :=
  seg.ack && 0 < w.conn.len && 0 ≤ ackDiff seg w && ackDiff seg w < w.conn.len

def ackConn (ackno : BitVec 32) (diff : Nat) (c : TcpConn) : TcpConn :=
  let c := { c with sndNxt := ackno }
  let c := if c.nrtx = 0 then rttUpdate c else c
  { c with timer := c.rto, len := diff }

def ackOutstanding (seg : Arrival) (w : Window) : Window :=
  if acknowledges seg w then
    { w.setConn (ackConn seg.ackno (ackDiff seg w).toNat) with
      midpoint := BitVec.ofInt 8 (ackDiff seg w) }
  else w

def addRcvNxt (len : Nat) (w : Window) : Window :=
  w.setConn fun c => { c with rcvNxt := c.rcvNxt + BitVec.ofNat 32 len }

def setMss (cfg : Config) (mssOption : Option Nat) (w : Window) : Window :=
  match mssOption with
  | none => w
  | some mss => w.setConn fun c =>
      { c with initialmss := min mss cfg.tcpMss, mss := min mss cfg.tcpMss }

def xtcpdRecv (len : Nat) (client : Client) (w : Window) : Window :=
  if 0 < len then serve client.recv w else w

-- xtcpd_init_state and the wait for XTCP_NEW_CONNECTION.
def announce (client : Client) (w : Window) : Window :=
  serve client.send { w with acceptsPartialAck := false, sendRequest := 0 }

def synRcvdInput (cfg : Config) (seg : Arrival) (client : Client) (acked : Bool) (w : Window) :
    Window :=
  if acked then
    let w := addRcvNxt seg.len ((w.setConn fun c => { c with len := 0 }).setState .established)
    appsend cfg false 0 client.buf (xtcpdRecv seg.len client (announce client w))
  else w

def synSentInput (cfg : Config) (seg : Arrival) (client : Client) (acked : Bool) (w : Window) :
    Window :=
  if acked && seg.syn && seg.ack then
    let w := (setMss cfg seg.mssOption w).setState .established
    let w := w.setConn fun c => { c with rcvNxt := seg.seqno + 1, len := 0 }
    appsend cfg false 0 client.buf (announce client w)
  else w.setState .closed

def takeWindow (seg : Arrival) (w : Window) : Window :=
  w.setConn fun c =>
    { c with mss := if c.initialmss < seg.wnd ∨ seg.wnd = 0 then c.initialmss else seg.wnd }

def received (seg : Arrival) (client : Client) (w : Window) : Window :=
  xtcpdRecv seg.len client (takeWindow seg (addRcvNxt seg.len w))

def establishedInput (cfg : Config) (stream : Nat → Byte) (seg : Arrival) (client : Client)
    (acked : Bool) (w : Window) : Window :=
  let w := received seg client w
  if acked then
    let (slen, buf, w) := doXtcpdSend stream client w
    appsend cfg true slen buf (handOver slen w)
  else if 0 < seg.len then appsend cfg false 0 client.buf w
  else w

def inOrder (seg : Arrival) (w : Window) : Bool :=
  (w.state == .synSent && seg.syn && seg.ack) || (seg.len == 0 && !seg.syn) ||
    seg.seqno == w.conn.rcvNxt

def segmentInput (cfg : Config) (stream : Nat → Byte) (seg : Arrival) (client : Client)
    (w : Window) : Window :=
  if inOrder seg w then
    let acked := acknowledges seg w
    let w := ackOutstanding seg w
    match w.state with
    | .synRcvd => synRcvdInput cfg seg client acked w
    | .synSent => synSentInput cfg seg client acked w
    | .established => establishedInput cfg stream seg client acked w
    | _ => w
  else w

def handlePoll (stream : Nat → Byte) (client : Client) (w : Window) :
    Nat × (Nat → Byte) × Window :=
  if 0 < w.sendRequest then
    let (slen, buf, w) := doXtcpdSend stream client w
    (slen, buf, { handOver slen w with sendRequest := w.sendRequest - 1 })
  else (0, client.buf, w)

def poll (cfg : Config) (stream : Nat → Byte) (client : Client) (w : Window) : Window :=
  let (slen, buf, w) := handlePoll stream client w
  appsend cfg false slen buf w

def pollConn (cfg : Config) (stream : Nat → Byte) (client : Client) (w : Window) : Window :=
  if w.state = .established ∧ (w.conn.len = 0 ∨ w.midpoint ≠ 0) then poll cfg stream client w
  else w

-- XTCP_RESEND_DATA: the client begins again at the first byte not yet acknowledged.
def rexmit (stream : Nat → Byte) (client : Client) (w : Window) : Window :=
  let chunk := slice stream (w.handed - w.conn.len) (min client.len w.conn.mss)
  apprexmit false chunk.length (write client.buf chunk) (serve client.send w)

def outstandingTimer (stream : Nat → Byte) (client : Client) (w : Window) : Window :=
  let timer := w.conn.timer
  let w := w.setConn fun c => { c with timer := c.timer - 1 }
  if timer = 0 then
    if w.conn.nrtx = maxRtx ∨ (w.state ≠ .established ∧ w.conn.nrtx = maxSynRtx) then
      w.setState .closed
    else
      let w := w.setConn fun c => { c with timer := rexmitTimer c.nrtx, nrtx := c.nrtx + 1 }
      if w.state = .established then rexmit stream client w else w
  else w

def periodic (cfg : Config) (stream : Nat → Byte) (client : Client) (w : Window) : Window :=
  if w.state = .established ∨ w.state = .synRcvd ∨ w.state = .synSent then
    if w.conn.len ≠ 0 then outstandingTimer stream client w
    else if w.state = .established then poll cfg stream client w
    else w
  else w

inductive Input where
  | segment (seg : Arrival) (client : Client)
  | checkConnectionPoll (client : Client)
  | periodicTimer (client : Client)
  | commands (s : Served)

def step (cfg : Config) (stream : Nat → Byte) (w : Window) : Input → Window
  | .segment seg client => segmentInput cfg stream seg client w
  | .checkConnectionPoll client => pollConn cfg stream client w
  | .periodicTimer client => periodic cfg stream client w
  | .commands s => serve s w

def run (cfg : Config) (stream : Nat → Byte) (w : Window) (inputs : List Input) : Window :=
  inputs.foldl (step cfg stream) w

inductive Opening where
  | listen (iss : BitVec 32) (seg : Segment)
  | connect (iss : BitVec 32) (ripaddr : Ipaddr) (lport rport : Nat)

def foundListen (cfg : Config) (iss : BitVec 32) (seg : Segment) (w : Window) : Window :=
  setMss cfg seg.mssOption (w.setConn fun c =>
    { c with
      rto := uipRto
      timer := uipRto
      sa := 0
      sv := 4
      nrtx := 0
      lport := seg.destport
      rport := seg.srcport
      ripaddr := seg.srcipaddr
      tcpstateflags := ⟨.synRcvd, false⟩
      sndNxt := iss
      len := 1
      rcvNxt := seg.seqno + 1 })

def uipConnect (cfg : Config) (iss : BitVec 32) (ripaddr : Ipaddr) (lport rport : Nat)
    (w : Window) : Window :=
  { w.setConn fun c =>
      { c with
        tcpstateflags := ⟨.synSent, false⟩
        sndNxt := iss
        initialmss := cfg.tcpMss
        mss := cfg.tcpMss
        len := 1
        nrtx := 0
        timer := 1
        rto := uipRto
        sa := 0
        sv := 16
        lport := lport
        rport := rport
        ripaddr := ripaddr } with
    midpoint := 0 }

-- The slot may have been used before: only what the open writes is new.
def openSlot (cfg : Config) (w : Window) : Opening → Window
  | .listen iss seg => foundListen cfg iss seg { w with iss := iss, handed := 0, wire := [] }
  | .connect iss ripaddr lport rport =>
      uipConnect cfg iss ripaddr lport rport { w with iss := iss, handed := 0, wire := [] }

end Xtcp.Sliding

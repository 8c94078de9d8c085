import Xtcp.Tftp.Packet

namespace Xtcp.Tftp

def tftpDefaultPort : Nat := 69
def tftpSourceTidSeed : Nat := 51337
def tftpTimeoutSeconds : Nat := 3

inductive Stage where
  | idle
  | waitingForConnection
  | waitingForData
  | sendingAck
  | complete
  deriving DecidableEq, Repr

-- globals holds block_num and the two signals of tftp.xc besides the counter of tftp_support.c.
structure TftpState where
  stage : Stage
  localTid : Nat
  prevBlockNum : Nat
  numTxBytes : Int
  connId : Int
  globals : Globals
  deriving DecidableEq, Repr

structure Connection where
  id : Nat
  localPort : Nat
  deriving DecidableEq, Repr

-- XTCP_IFUP and XTCP_IFDOWN have no connection: their id is any number.
inductive Event where
  | ifup
  | ifdown (id : Int)
  | newConnection (conn : Connection) (begin : Int)
  | recvData (conn : Connection) (payload stale : List UInt8) (app : List UInt8 → Int → Int)
  | requestData (conn : Connection)
  | resendData (conn : Connection)
  | sentData (conn : Connection)
  | poll (conn : Connection)
  | timedOut (conn : Connection)
  | aborted (conn : Connection)
  | closed (conn : Connection)
  | alreadyHandled (conn : Connection)

def Event.conn : Event → Option Connection
  | .ifup | .ifdown _ => none
  | .newConnection c _ | .recvData c _ _ _ | .requestData c | .resendData c | .sentData c
  | .poll c | .timedOut c | .aborted c | .closed c | .alreadyHandled c => some c

abbrev Step := TftpState × List Call

def tftpInit (s : TftpState) : TftpState :=
  { s with
    prevBlockNum := 0
    numTxBytes := 0
    connId := -1
    globals := { s.globals with blockNum := 0, error := false, complete := false } }

-- The values the program starts with.
def powerOn (txBuf : List UInt8) : TftpState :=
  ⟨.idle, tftpSourceTidSeed, 0, 0, 0, ⟨0, txBuf, 0, false, false⟩⟩

def tftpClose (s : TftpState) : TftpState :=
  { s with
    prevBlockNum := 0
    numTxBytes := 0
    connId := -1
    globals := { s.globals with blockNum := 0, error := false, complete := false } }

def interfaceDown (id : Int) (s : TftpState) : Step :=
  if s.stage = .waitingForData ∨ s.stage = .sendingAck then
    -- The assignment of TFTP_IDLE is written as a comparison.
    (tftpClose s, [.transferError, .close id])
  else (s, [])

def newConnection (conn : Connection) (begin : Int) (s : TftpState) : Step :=
  if s.stage = .waitingForConnection ∧ conn.localPort = tftpDefaultPort then
    let tid := (s.localTid + 1) % 2 ^ 16
    let s := { s with connId := conn.id, localTid := tid }
    let calls := [.bindLocal conn.id tid, .transferBegin begin]
    let (s, refused) :=
      if begin ≠ 0 then
        let (g, n) := tftpProcessAppError s.globals
        ({ s with globals := { g with error := true }, numTxBytes := n }, decide (0 < n))
      else (s, false)
    if refused then ({ s with stage := .sendingAck }, calls ++ [.initSend conn.id])
    else
      ({ s with stage := .waitingForData },
        calls ++ [.setPollInterval conn.id (tftpTimeoutSeconds * 1000), .bindLocal conn.id tid])
  else (s, [])

def packetReceived (conn : Connection) (payload stale : List UInt8)
    (app : List UInt8 → Int → Int) (s : TftpState) : Step :=
  if s.stage = .waitingForData ∧ (conn.id : Int) = s.connId then
    let (g, n, calls) :=
      tftpProcessPacket app (received payload stale) payload.length s.globals
    let s := { s with globals := g, numTxBytes := n }
    if 0 < n then ({ s with stage := .sendingAck }, .recv :: calls ++ [.initSend conn.id])
    else
      ({ tftpClose s with stage := .waitingForConnection },
        .recv :: calls ++ [.transferError, .close conn.id])
  else (s, [.recv])

def dataRequested (s : TftpState) : Step :=
  if s.stage = .sendingAck ∧ 0 < s.numTxBytes then
    (s, [.send (s.globals.txBuf.take s.numTxBytes.toNat)])
  else (s, [])

def dataSent (conn : Connection) (s : TftpState) : Step :=
  let s := { s with numTxBytes := 0 }
  if s.globals.error then
    ({ tftpClose s with stage := .waitingForConnection },
      [.completeSend, .transferError, .close conn.id])
  else if s.globals.complete then
    ({ tftpClose s with stage := .complete }, [.completeSend, .transferComplete, .close conn.id])
  else ({ s with stage := .waitingForData }, [.completeSend])

def polled (s : TftpState) : Step :=
  if s.stage = .waitingForData ∧ s.prevBlockNum = s.globals.blockNum then
    ({ tftpClose s with stage := .waitingForConnection }, [.close s.connId])
  else ({ s with prevBlockNum := s.globals.blockNum }, [])

def OnPort (s : TftpState) (e : Event) : Prop :=
  ∀ c ∈ e.conn, c.localPort = tftpDefaultPort ∨ c.localPort = s.localTid

instance (s : TftpState) (e : Event) : Decidable (OnPort s e) := by
  unfold OnPort
  infer_instance

def tftpHandleEvent (s : TftpState) (e : Event) : Step :=
  if s.stage = .complete then (s, [])
  else if ¬ OnPort s e then (s, [])
  else
    match e with
    | .ifup => ({ s with stage := .waitingForConnection }, [])
    | .ifdown id => interfaceDown id s
    | .newConnection conn begin => newConnection conn begin s
    | .recvData conn payload stale app => packetReceived conn payload stale app s
    | .requestData _ | .resendData _ => dataRequested s
    | .sentData conn => dataSent conn s
    | .poll _ => polled s
    | .timedOut _ | .aborted _ | .closed _ | .alreadyHandled _ => (s, [])

def perform (r : Step) (e : Event) : Step :=
  let (s, new) := tftpHandleEvent r.1 e
  (s, r.2 ++ new)

def run (txBuf : List UInt8) (events : List Event) : Step :=
  events.foldl perform (tftpInit (powerOn txBuf), [])

theorem run_concat (txBuf : List UInt8) (pre : List Event) (e : Event) :
    run txBuf (pre ++ [e]) = perform (run txBuf pre) e := List.foldl_concat ..

section Effect

variable (s : TftpState)

def Begins (conn : Connection) : Prop :=
  s.stage = .waitingForConnection ∧ conn.localPort = tftpDefaultPort

def Processes (conn : Connection) : Prop := s.stage = .waitingForData ∧ (conn.id : Int) = s.connId

def ended : TftpState := { tftpClose s with stage := .waitingForConnection }

def begun (conn : Connection) : TftpState :=
  { s with connId := conn.id, localTid := (s.localTid + 1) % 2 ^ 16, stage := .waitingForData }

def refused (conn : Connection) : TftpState :=
  let (g, n) := tftpProcessAppError s.globals
  { s with
    connId := conn.id
    localTid := (s.localTid + 1) % 2 ^ 16
    globals := { g with error := true }
    numTxBytes := n
    stage := .sendingAck }

def beginCalls (conn : Connection) (begin : Int) : List Call :=
  [.bindLocal conn.id ((s.localTid + 1) % 2 ^ 16), .transferBegin begin]

-- What an event can come to.
inductive Effect : Event → TftpState → List Call → Prop where
  | ignored (e : Event) : Effect e s []
  | up : Effect .ifup { s with stage := .waitingForConnection } []
  | down (id : Int) : s.stage = .waitingForData ∨ s.stage = .sendingAck →
      Effect (.ifdown id) (tftpClose s) [.transferError, .close id]
  | begun (conn : Connection) : Begins s conn →
      Effect (.newConnection conn 0) (begun s conn)
        (beginCalls s conn 0 ++ [.setPollInterval conn.id (tftpTimeoutSeconds * 1000),
          .bindLocal conn.id ((s.localTid + 1) % 2 ^ 16)])
  | refused (conn : Connection) (begin : Int) : Begins s conn → begin ≠ 0 →
      Effect (.newConnection conn begin) (refused s conn)
        (beginCalls s conn begin ++ [.initSend conn.id])
  | dropped (conn : Connection) (payload stale : List UInt8) (app : List UInt8 → Int → Int) :
      Effect (.recvData conn payload stale app) s [.recv]
  | processed (conn : Connection) (payload stale : List UInt8) (app : List UInt8 → Int → Int)
      (r : Reply) : OnPort s (.recvData conn payload stale app) → Processes s conn →
      Handled (received payload stale) payload.length s.globals r → 0 < r.2.1 →
      Effect (.recvData conn payload stale app)
        { s with globals := r.1, numTxBytes := r.2.1, stage := .sendingAck }
        (.recv :: r.2.2 ++ [.initSend conn.id])
  | errorReceived (conn : Connection) (payload stale : List UInt8)
      (app : List UInt8 → Int → Int) : Processes s conn →
      Effect (.recvData conn payload stale app) (ended s)
        [.recv, .transferError, .close conn.id]
  | requested (e : Event) : s.stage = .sendingAck → 0 < s.numTxBytes →
      Effect e s [.send (s.globals.txBuf.take s.numTxBytes.toNat)]
  | failed (conn : Connection) : s.globals.error = true →
      Effect (.sentData conn) (ended s) [.completeSend, .transferError, .close conn.id]
  | completed (conn : Connection) : s.globals.error = false → s.globals.complete = true →
      Effect (.sentData conn) { tftpClose s with stage := .complete }
        [.completeSend, .transferComplete, .close conn.id]
  | acked (conn : Connection) : s.globals.error = false → s.globals.complete = false →
      Effect (.sentData conn) { s with numTxBytes := 0, stage := .waitingForData } [.completeSend]
  | timedOut (conn : Connection) : OnPort s (.poll conn) → s.stage = .waitingForData →
      s.prevBlockNum = s.globals.blockNum → Effect (.poll conn) (ended s) [.close s.connId]
  | polled (conn : Connection) :
      Effect (.poll conn) { s with prevBlockNum := s.globals.blockNum } []

variable {s}

theorem handled_error {rxBuf : Memory} {n : Nat} {g : Globals} {r : Reply}
    (h : Handled rxBuf n g r) (hr : ¬ 0 < r.2.1) : r = (g, -1, []) := by
  cases h with
  | errorReceived => rfl
  | rejected code msg =>
    refine absurd ?_ hr
    simp [errorPkt]
    omega
  | _ => simp at hr

theorem newConnection_effect (conn : Connection) (begin : Int) :
    Effect s (.newConnection conn begin) (newConnection conn begin s).1
      (newConnection conn begin s).2 := by
  simp only [newConnection]
  split
  · rename_i hb
    by_cases hr : begin = 0
    · subst hr
      exact .begun conn hb
    · simp only [ne_eq, hr, not_false_eq_true, if_true]
      exact .refused conn begin hb hr
  · exact .ignored _

theorem packetReceived_effect (conn : Connection) (payload stale : List UInt8)
    (app : List UInt8 → Int → Int) (hon : OnPort s (.recvData conn payload stale app)) :
    Effect s (.recvData conn payload stale app) (packetReceived conn payload stale app s).1
      (packetReceived conn payload stale app s).2 := by
  simp only [packetReceived]
  split
  · rename_i hp
    have h := tftpProcessPacket_handled app (received payload stale) payload.length s.globals
    split
    · rename_i hn
      exact .processed conn payload stale app _ hon hp h hn
    · rename_i hn
      rw [handled_error h hn]
      exact .errorReceived conn payload stale app hp
  · exact .dropped conn payload stale app

theorem dataRequested_effect (e : Event) :
    Effect s e (dataRequested s).1 (dataRequested s).2 := by
  simp only [dataRequested]
  split
  · rename_i h
    exact .requested e h.1 h.2
  · exact .ignored e

theorem dataSent_effect (conn : Connection) :
    Effect s (.sentData conn) (dataSent conn s).1 (dataSent conn s).2 := by
  simp only [dataSent]
  split
  · rename_i he
    exact .failed conn he
  split
  · rename_i he hc
    exact .completed conn (Bool.eq_false_iff.mpr he) hc
  · rename_i he hc
    exact .acked conn (Bool.eq_false_iff.mpr he) (Bool.eq_false_iff.mpr hc)

theorem polled_effect (conn : Connection) (hon : OnPort s (.poll conn)) :
    Effect s (.poll conn) (polled s).1 (polled s).2 := by
  simp only [polled]
  split
  · rename_i h
    exact .timedOut conn hon h.1 h.2
  · exact .polled conn

theorem tftpHandleEvent_effect (s : TftpState) (e : Event) :
    Effect s e (tftpHandleEvent s e).1 (tftpHandleEvent s e).2 := by
  simp only [tftpHandleEvent]
  split
  · exact .ignored e
  split
  · exact .ignored e
  · rename_i hon
    cases e with
    | ifup => exact .up
    | ifdown id =>
      simp only [interfaceDown]
      split
      · rename_i h
        exact .down id h
      · exact .ignored _
    | newConnection conn begin => exact newConnection_effect conn begin
    | recvData conn payload stale app =>
      exact packetReceived_effect conn payload stale app (not_not.mp hon)
    | requestData conn => exact dataRequested_effect _
    | resendData conn => exact dataRequested_effect _
    | sentData conn => exact dataSent_effect conn
    | poll conn => exact polled_effect conn (not_not.mp hon)
    | _ => exact .ignored _

end Effect

section Examples

def writeRequest : List UInt8 :=
  hton16 tftpOpcodeWrq ++ tftpImageFilename ++ [0] ++ octet ++ [0]

def dataPacket (blockNum : Nat) (bytes : List UInt8) : List UInt8 :=
  hton16 tftpOpcodeData ++ hton16 blockNum ++ bytes

def peer : Connection := ⟨7, tftpSourceTidSeed + 1⟩

def opened : List Event := [.ifup, .newConnection ⟨7, tftpDefaultPort⟩ 0]

def packet (bytes : List UInt8) : Event := .recvData peer bytes [] fun _ _ => 0

-- A packet and the reply to it.
def exchange (bytes : List UInt8) : List Event :=
  [packet bytes, .requestData peer, .sentData peer]

def shortUpload : List Event :=
  opened ++ exchange writeRequest ++ exchange (dataPacket 1 [1, 2, 3])

example : (run [] shortUpload).1.stage = .complete := by decide +kernel

end Examples

end Xtcp.Tftp

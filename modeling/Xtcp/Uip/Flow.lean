import Xtcp.Library.Path
import Xtcp.Uip.Deliver

namespace Xtcp.Uip
open Channel Listen Labelled

variable {nT nU : Nat}

-- The flow control of one TCP connection: what its receive side is, what is sent and delivered,
-- the commands that the clients still have for the server, and whether the data of the segment
-- at hand has been taken.
@[ext] structure Flow (nT nU : Nat) where
  state : TcpState
  stopped : Bool
  rcvNxt : BitVec 32
  ackRequest : Bool
  ackRecvMode : Bool
  conns : Slot nT nU → Option (Slot nT nU)
  wire : List Segment
  received : Nat
  pending : List (Nat × Command)
  data : Bool

def Entry.isRecv (i : Fin nT) : Entry nT nU → Bool
  | .sent slot event _ _ _ _ _ _ => slot == .tcp i && event == .recvData
  | _ => false

def Stack.flow (w : Stack nT nU) (i : Fin nT) (data : Bool) : Flow nT nU where
  state := w.state i
  stopped := (w.tcp i).tcpstateflags.stopped
  rcvNxt := (w.tcp i).rcvNxt
  ackRequest := (w.app (.tcp i)).s.ackRequest
  ackRecvMode := (w.app (.tcp i)).s.ackRecvMode
  conns slot := (w.app slot).s.uipConn
  wire := w.wire
  received := w.log.countP (Entry.isRecv i)
  pending := w.env.waits.flatten
  data := data

namespace Flow

def setState (a : Flow nT nU) (st : TcpState) : Flow nT nU := { a with state := st, stopped := false }

def connect (a : Flow nT nU) (slot : Slot nT nU) (conn : Option (Slot nT nU)) : Flow nT nU :=
  { a with conns := Function.update a.conns slot conn }

-- Neither a byte nor a FIN is taken while the connection is stopped.
def Shut (a : Flow nT nU) : Prop := a.state = .established ∧ a.stopped = true

def Own (a : Flow nT nU) : Prop := ∀ slot, a.conns slot = none ∨ a.conns slot = some slot

end Flow

-- What happens to the connection. turn: the server goes on to its next input. stops: the client
-- has taken the data in ack_recv_mode.
inductive Moment where
  | turn
  | quiet
  | arrive (seg : Segment)
  | accept
  | recvData (stops : Bool)
  | pause
  | resume
  | answer
  | become (st : TcpState)
  | output (seg : Segment)
  deriving DecidableEq, Repr

def Moment.stops : Moment → Bool
  | .recvData stops => stops
  | .pause => true
  | _ => false

def Moment.calm : Moment → Bool
  | .turn => false
  | .arrive _ => false
  | .answer => false
  | _ => true

inductive Act (win : Nat) (i : Fin nT) : Flow nT nU → Moment → Flow nT nU → Prop where
  | turn (a : Flow nT nU) (pending : List (Nat × Command)) :
      Act win i a .turn { a with pending := pending, data := false }
  -- a command for another connection, or one that does not touch the receive side
  | serve (a : Flow nT nU) (c : Nat × Command) (rest : List (Nat × Command)) :
      a.pending = c :: rest → Act win i a .quiet { a with pending := rest }
  | mode (a : Flow nT nU) (link id : Nat) (rest : List (Nat × Command)) :
      a.pending = (link, .ackRecvMode id) :: rest →
      Act win i a .quiet { a with ackRecvMode := true, pending := rest }
  | pause (a : Flow nT nU) (link id : Nat) (rest : List (Nat × Command)) :
      a.pending = (link, .pause id) :: rest →
      Act win i a .pause { a with stopped := true, pending := rest }
  | resume (a : Flow nT nU) (link id : Nat) (c : Command) (rest : List (Nat × Command)) :
      c = .unpause id ∨ c = .ackRecv id → a.pending = (link, c) :: rest →
      a.conns (.tcp i) = some (.tcp i) →
      Act win i a .resume { a with stopped := false, ackRequest := true, pending := rest }
  -- the slot has never had a connection: the NULL in uip_conn is written through
  | stray (a : Flow nT nU) (link id : Nat) (c : Command) (rest : List (Nat × Command)) :
      c = .unpause id ∨ c = .ackRecv id → a.pending = (link, c) :: rest →
      a.conns (.tcp i) = none →
      Act win i a .quiet { a with ackRequest := true, pending := rest }
  | connect (a : Flow nT nU) (link port : Nat) (addr : Ipaddr) (rest : List (Nat × Command)) :
      a.pending = (link, .connect port addr .tcp) :: rest → a.state = .closed ∨ a.state = .timeWait →
      Act win i a (.become .synSent) { a.setState .synSent with pending := rest }
  | listen (a : Flow nT nU) (rcvNxt : BitVec 32) : a.state = .closed ∨ a.state = .timeWait →
      Act win i a (.become .synRcvd) { a.setState .synRcvd with rcvNxt := rcvNxt }
  | establish (a : Flow nT nU) (rcvNxt : BitVec 32) (conn : Option (Slot nT nU)) (data : Bool) :
      a.state = .synRcvd ∨ a.state = .synSent → conn = none ∨ conn = some (.tcp i) →
      Act win i a (.become .established)
        { (a.setState .established).connect (.tcp i) conn with
          rcvNxt := rcvNxt, ackRequest := false, ackRecvMode := false, data := data }
  | leave (a : Flow nT nU) (st : TcpState) : st ≠ .established →
      Act win i a (.become st) (a.setState st)
  | init (a : Flow nT nU) (slot : Slot nT nU) (conn : Option (Slot nT nU)) : slot ≠ .tcp i →
      conn = none ∨ conn = some slot → Act win i a .quiet (a.connect slot conn)
  | arrive (a : Flow nT nU) (seg : Segment) : Act win i a (.arrive seg) { a with data := false }
  | accept (a : Flow nT nU) (n : Nat) : ¬ a.Shut →
      Act win i a .accept { a with rcvNxt := a.rcvNxt + BitVec.ofNat 32 n, data := true }
  -- the client was not ready, and the record will be sent again
  | round (a : Flow nT nU) : a.data = true →
      Act win i a (.recvData false) { a with received := a.received + 1 }
  | taken (a : Flow nT nU) : a.data = true →
      Act win i a (.recvData a.ackRecvMode)
        { a with received := a.received + 1, stopped := a.stopped || a.ackRecvMode }
  | answer (a : Flow nT nU) : a.ackRequest = true →
      Act win i a .answer { a with ackRequest := false }
  | output (a : Flow nT nU) (seg : Segment) : seg.wnd = (if a.stopped then 0 else win) →
      Act win i a (.output seg) { a with wire := a.wire ++ [seg] }
  -- a segment for another connection, or a reset for none
  | other (a : Flow nT nU) (seg : Segment) :
      Act win i a .quiet { a with wire := a.wire ++ [seg] }

theorem Act.own {win : Nat} {i : Fin nT} {a b : Flow nT nU} {m : Moment} (ha : a.Own)
    (h : Act win i a m b) : b.Own := by
  have hconnect {slot : Slot nT nU} {conn : Option (Slot nT nU)}
      (hc : conn = none ∨ conn = some slot) (s : Slot nT nU) :
      Function.update a.conns slot conn s = none ∨ Function.update a.conns slot conn s = some s := by
    by_cases hs : s = slot
    · subst hs
      rw [Function.update_self]
      exact hc
    · rw [Function.update_of_ne hs]
      exact ha s
  cases h with
  | establish rcvNxt conn data _ hc => exact hconnect hc
  | init slot conn _ hc => exact hconnect hc
  | _ => exact ha

abbrev Told (win : Nat) (i : Fin nT) : Flow nT nU → List (Moment × Flow nT nU) → Flow nT nU → Prop :=
  Path (Act win i)

def Calm (ms : List (Moment × Flow nT nU)) : Prop := ∀ m ∈ ms, m.1.calm = true

def Moves (win : Nat) (i : Fin nT) (a b : Flow nT nU) : Prop :=
  a.Own → ∃ ms, Told win i a ms b ∧ Calm ms

section Moves

variable {win : Nat} {i : Fin nT} {a b c : Flow nT nU}

theorem Moves.refl : Moves win i a a :=
  fun _ => ⟨[], .nil, fun _ hm => absurd hm List.not_mem_nil⟩

theorem Moves.of_eq (h : a = b) : Moves win i a b := h ▸ Moves.refl

theorem Moves.act {m : Moment} (h : Act win i a m b) (hm : m.calm = true) : Moves win i a b :=
  fun _ => ⟨[(m, b)], .single h, fun _ hx => (List.mem_singleton.mp hx) ▸ hm⟩

theorem Told.own {ms : List (Moment × Flow nT nU)} (h : Told win i a ms b) (ha : a.Own) : b.Own :=
  h.invariant (fun hq hs => hs.own hq) ha

theorem Calm.append {ms ms' : List (Moment × Flow nT nU)} (h : Calm ms) (h' : Calm ms') :
    Calm (ms ++ ms') := fun m hm => (List.mem_append.mp hm).elim (h m) (h' m)

theorem Moves.trans (h : Moves win i a b) (h' : Moves win i b c) : Moves win i a c := by
  intro ha
  obtain ⟨ms, hms, hcalm⟩ := h ha
  obtain ⟨ms', hms', hcalm'⟩ := h' (hms.own ha)
  exact ⟨ms ++ ms', hms.append hms', hcalm.append hcalm'⟩

end Moves

end Xtcp.Uip

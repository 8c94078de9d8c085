import Xtcp.Tftp.Event
import Mathlib.Tactic.MkIffOfInductiveProp

namespace Xtcp.Tftp

def Call.isReceive : Call → Bool
  | .recv => true
  | _ => false

def Call.isSend : Call → Bool
  | .send _ | .completeSend => true
  | _ => false

def Event.asksData : Event → Bool
  | .requestData _ | .resendData _ => true
  | _ => false

def Event.asksSend (e : Event) : Bool :=
  e.asksData || match e with
    | .sentData _ => true
    | _ => false

def Event.asksReceive : Event → Bool
  | .recvData .. => true
  | _ => false

-- What the server waits for in xtcpd_recv and xtcpd_send.
@[mk_iff]
structure Answered (e : Event) (calls : List Call) : Prop where
  receive : e.asksReceive = true → calls.countP Call.isReceive = 1
  send : e.asksSend = true → calls.countP Call.isSend = 1

section Calls

variable {s : TftpState}

theorem handled_silent {rxBuf : Memory} {n : Nat} {g : Globals} {r : Reply}
    (h : Handled rxBuf n g r) : r.2.2.countP Call.isReceive = 0 := by
  cases h with
  | _ => rfl

theorem packetReceived_receives (conn : Connection) (payload stale : List UInt8)
    (app : List UInt8 → Int → Int) :
    (packetReceived conn payload stale app s).2.countP Call.isReceive = 1 := by
  simp only [packetReceived]
  split
  · have hsilent :=
      handled_silent (tftpProcessPacket_handled app (received payload stale) payload.length s.globals)
    split
    · simp [List.countP_cons, hsilent, Call.isReceive]
    · simp [List.countP_cons, hsilent, Call.isReceive]
  · rfl

theorem dataRequested_sends :
    (dataRequested s).2.countP Call.isSend = 1 ↔ s.stage = .sendingAck ∧ 0 < s.numTxBytes := by
  simp only [dataRequested]
  split
  · rename_i h
    simp [h, Call.isSend]
  · rename_i h
    simp [h]

theorem dataSent_sends (conn : Connection) : (dataSent conn s).2.countP Call.isSend = 1 := by
  simp only [dataSent]
  split
  · rfl
  split
  · rfl
  · rfl

end Calls

theorem answered_nil_iff (e : Event) :
    Answered e [] ↔ ¬ (e.asksReceive = true ∨ e.asksSend = true) := by
  constructor
  · rintro h (hr | hs)
    · simpa using h.receive hr
    · simpa using h.send hs
  · intro h
    exact ⟨fun hr => absurd (Or.inl hr) h, fun hs => absurd (Or.inr hs) h⟩

theorem event_answered (s : TftpState) (e : Event) (h : OnPort s e) :
    Answered e (tftpHandleEvent s e).2 ↔
      (e.asksReceive = true ∨ e.asksSend = true → s.stage ≠ .complete) ∧
        (e.asksData = true → s.stage = .sendingAck ∧ 0 < s.numTxBytes) := by
  simp only [tftpHandleEvent, h, not_true, if_false]
  split
  · rename_i hs
    rw [answered_nil_iff]
    have hsend : e.asksData = true → e.asksSend = true := by
      intro hd
      simp [Event.asksSend, hd]
    constructor
    · intro ho
      exact ⟨fun hasks => absurd hasks ho, fun hd => absurd (Or.inr (hsend hd)) ho⟩
    · rintro ⟨ho, -⟩ hasks
      exact ho hasks hs
  · rename_i hs
    rw [answered_iff]
    cases e with
    | recvData conn payload stale app =>
      simp [Event.asksReceive, Event.asksSend, Event.asksData, hs, packetReceived_receives]
    | requestData conn =>
      simp [Event.asksReceive, Event.asksSend, Event.asksData, hs, dataRequested_sends]
    | resendData conn =>
      simp [Event.asksReceive, Event.asksSend, Event.asksData, hs, dataRequested_sends]
    | sentData conn =>
      simp [Event.asksReceive, Event.asksSend, Event.asksData, hs, dataSent_sends]
    | _ => simp [Event.asksReceive, Event.asksSend, Event.asksData]

section Examples

theorem event_answered_sent : Answered (.sentData peer) [.completeSend] := by
  let s := (run [] opened).1
  have h := event_answered s (.sentData peer) (by decide)
  exact h.mpr ⟨fun _ => by decide, fun hd => by cases hd⟩

-- The peer sends its last packet once more, because the reply to it was lost.
theorem late_packet_unanswered :
    let s := (run [] shortUpload).1
    let e := packet (dataPacket 1 [1, 2, 3])
    OnPort s e ∧ ¬ Answered e (tftpHandleEvent s e).2 := by
  constructor
  · decide +kernel
  · intro h
    have hr := h.receive rfl
    revert hr
    decide +kernel

end Examples

end Xtcp.Tftp

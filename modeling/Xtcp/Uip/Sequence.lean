import Xtcp.Uip.Process

namespace Xtcp.Uip
open Halfword Channel Listen

variable {nT nU : Nat}

@[simp] theorem iss_setTcp (w : Stack nT nU) (i : Fin nT) (f : TcpConn → TcpConn) :
    (w.setTcp i f).iss = w.iss := rfl

@[simp] theorem iss_setUdp (w : Stack nT nU) (i : Fin nU) (f : UdpConn → UdpConn) :
    (w.setUdp i f).iss = w.iss := rfl

@[simp] theorem iss_setApp (w : Stack nT nU) (slot : Slot nT nU)
    (f : Xtcpd nT nU → Xtcpd nT nU) : (w.setApp slot f).iss = w.iss := rfl

@[simp] theorem iss_setS (w : Stack nT nU) (slot : Slot nT nU)
    (f : ServerState nT nU → ServerState nT nU) : (w.setS slot f).iss = w.iss := rfl

@[simp] theorem iss_setConn (w : Stack nT nU) (slot : Slot nT nU) (f : Conn → Conn) :
    (w.setConn slot f).iss = w.iss := rfl

@[simp] theorem iss_setState (w : Stack nT nU) (i : Fin nT) (st : TcpState) :
    (w.setState i st).iss = w.iss := rfl

@[simp] theorem iss_note (w : Stack nT nU) (e : Entry nT nU) : (w.note e).iss = w.iss := rfl

@[simp] theorem iss_drop (w : Stack nT nU) : w.drop.iss = w.iss := rfl

@[simp] theorem iss_deref (w : Stack nT nU) : w.deref.iss = w.iss := rfl

theorem iss_setStopped (w : Stack nT nU) (o : Option (Slot nT nU)) :
    (setStopped w o).iss = w.iss := by
  rcases o with - | - | - <;> rfl

theorem iss_clearStopped (w : Stack nT nU) (o : Option (Slot nT nU)) :
    (clearStopped w o).iss = w.iss := by
  rcases o with - | - | - <;> rfl

theorem iss_onState (w : Stack nT nU) (connId : Nat) {f : Slot nT nU → Stack nT nU}
    (hf : ∀ slot, (f slot).iss = w.iss) : (onState w connId f).iss = w.iss := by
  unfold onState
  split
  · rfl
  · exact hf _

theorem iss_xtcpdConnect (cfg : Config) (w : Stack nT nU) (linknum portNumber : Nat)
    (addr : Ipaddr) (p : Protocol) :
    (xtcpdConnect cfg w linknum portNumber addr p).iss = w.iss := by
  cases p with
  | tcp =>
    simp only [xtcpdConnect, uipConnect]
    cases unusedTcp _ <;> rfl
  | udp =>
    simp only [xtcpdConnect, uipUdpNew]
    cases unusedUdp _ <;> rfl

theorem iss_xtcpdBindLocal (w : Stack nT nU) (connId portNumber : Nat) :
    (xtcpdBindLocal w connId portNumber).iss = w.iss := by
  unfold xtcpdBindLocal
  split
  · rfl
  · dsimp only
    split <;> rfl

theorem iss_xtcpdBindRemote (w : Stack nT nU) (connId : Nat) (addr : Ipaddr) (portNumber : Nat) :
    (xtcpdBindRemote w connId addr portNumber).iss = w.iss := by
  unfold xtcpdBindRemote
  split
  · rfl
  · split
    · dsimp only
      split <;> rfl
    · rfl

theorem iss_runCommand (cfg : Config) (w : Stack nT nU) (c : Nat × Command) :
    (runCommand cfg w c).iss = w.iss := by
  obtain ⟨linknum, c⟩ := c
  cases c with
  | listen port p => cases p <;> rfl
  | connect port addr p => exact iss_xtcpdConnect cfg w linknum port addr p
  | bindLocal connId port => exact iss_xtcpdBindLocal w connId port
  | bindRemote connId addr port => exact iss_xtcpdBindRemote w connId addr port
  | pause connId => exact iss_onState w connId fun slot => iss_setStopped w _
  | unpause connId => exact iss_onState w connId fun slot => iss_clearStopped w _
  | ackRecv connId => exact iss_onState w connId fun slot => iss_clearStopped w _
  | setPollInterval connId interval =>
    refine iss_onState w connId fun slot => ?_
    split <;> rfl
  | initSend | setAppstate | close | abort | ackRecvMode => exact iss_onState w _ fun slot => rfl
  | _ => rfl

theorem iss_untilReady (cfg : Config) (slot : Slot nT nU) (event : XtcpEvent)
    (ready : Option Nat) (w : Stack nT nU) : (untilReady cfg slot event ready w).iss = w.iss := by
  have h : ∀ cs : List (Nat × Command), ∀ v : Stack nT nU, (runCommands cfg v cs).iss = v.iss := by
    intro cs
    induction cs with
    | nil => exact fun v => rfl
    | cons c cs ih => exact fun v => (ih _).trans (iss_runCommand cfg v c)
  exact h _ _

theorem iss_xtcpdEvent (cfg : Config) (event : XtcpEvent) (slot : Slot nT nU)
    (w : Stack nT nU) : (xtcpdEvent cfg event slot w).iss = w.iss := by
  unfold xtcpdEvent
  split
  · rfl
  · exact iss_untilReady cfg slot event _ w

theorem iss_recvRounds (cfg : Config) (slot : Slot nT nU) (link ready : Option Nat)
    (answers : List Bool) (w : Stack nT nU) :
    (recvRounds cfg slot link ready answers w).iss = w.iss := by
  induction answers generalizing ready w with
  | nil => rfl
  | cons answer answers ih =>
    cases answer with
    | false => exact (ih link _).trans (iss_untilReady cfg slot .recvData link _)
    | true => rfl

theorem iss_xtcpdRecv (cfg : Config) (slot : Slot nT nU) (ready : Nat) (w : Stack nT nU) :
    (xtcpdRecv cfg slot ready w).iss = w.iss :=
  (iss_recvRounds cfg slot _ _ _ _).trans (iss_untilReady cfg slot .recvData _ w)

theorem iss_doXtcpdSend (cfg : Config) (slot : Slot nT nU) (event : XtcpEvent) (link mss : Nat)
    (w : Stack nT nU) : (doXtcpdSend cfg slot event link mss w).2.iss = w.iss :=
  iss_untilReady cfg slot event (some link) w

theorem iss_uipSend (len : Nat) (w : Stack nT nU) : (uipSend len w).iss = w.iss := by
  unfold uipSend
  split <;> rfl

theorem iss_endConnection (cfg : Config) (slot : Slot nT nU) (tcpEnd : Stack nT nU → Stack nT nU)
    (hend : ∀ w, (tcpEnd w).iss = w.iss) (w : Stack nT nU) :
    (endConnection cfg slot tcpEnd w).iss = w.iss := by
  cases slot with
  | tcp i => exact hend w
  | udp i => exact iss_xtcpdEvent cfg .closed (.udp i) _

theorem iss_xtcpdInitState (w : Stack nT nU) (slot : Slot nT nU) :
    (xtcpdInitState w slot).iss = w.iss := by
  unfold xtcpdInitState
  dsimp only
  split <;> rfl

theorem iss_pollConnect (cfg : Config) (slot : Slot nT nU) (w : Stack nT nU) :
    (pollConnect cfg slot w).iss = w.iss := by
  cases slot with
  | tcp i => rfl
  | udp i => exact (iss_xtcpdEvent cfg .newConnection (.udp i) _).trans (iss_xtcpdInitState w _)

theorem iss_pollSend (cfg : Config) (slot : Slot nT nU) (w : Stack nT nU) :
    (pollSend cfg slot w).iss = w.iss := by
  unfold pollSend
  dsimp only
  split
  · rfl
  · exact (iss_uipSend _ _).trans (iss_doXtcpdSend cfg slot .requestData _ _ w)

theorem iss_pollTimer (cfg : Config) (slot : Slot nT nU) (w : Stack nT nU) :
    (pollTimer cfg slot w).iss = w.iss := by
  unfold pollTimer
  split
  · rfl
  · dsimp only
    split
    · exact iss_xtcpdEvent cfg .poll slot _
    · rfl

theorem iss_pollAck (slot : Slot nT nU) (w : Stack nT nU) : (pollAck slot w).iss = w.iss := by
  unfold pollAck
  split <;> rfl

theorem iss_uipXtcpdHandlePoll (cfg : Config) (slot : Slot nT nU) (w : Stack nT nU) :
    (uipXtcpdHandlePoll cfg slot w).iss = w.iss := by
  rw [← iss_pollAck slot w]
  unfold uipXtcpdHandlePoll
  dsimp only
  split
  · exact iss_endConnection cfg slot uipAbort (fun _ => rfl) _
  split
  · exact iss_endConnection cfg slot uipClose (fun _ => rfl) _
  split
  · exact iss_pollConnect cfg slot _
  split
  · exact iss_pollSend cfg slot _
  · exact iss_pollTimer cfg slot _

theorem iss_onNewdata (cfg : Config) (slot : Slot nT nU) (w : Stack nT nU) :
    (onNewdata cfg slot w).iss = w.iss := by
  unfold onNewdata
  split
  · rfl
  next ready _ =>
    rw [← iss_xtcpdRecv cfg slot ready w]
    dsimp only
    split
    · cases slot <;> rfl
    · rfl

theorem iss_onAcked (cfg : Config) (slot : Slot nT nU) (w : Stack nT nU) :
    (onAcked cfg slot w).iss = w.iss := by
  unfold onAcked
  split
  · split
    · rfl
    · exact (iss_uipSend _ _).trans (iss_doXtcpdSend cfg slot .sentData _ _ w)
  · rfl

theorem iss_onRexmit (cfg : Config) (slot : Slot nT nU) (w : Stack nT nU) :
    (onRexmit cfg slot w).iss = w.iss := by
  unfold onRexmit
  split
  · split
    · rfl
    · exact (iss_uipSend _ _).trans (iss_untilReady cfg slot .resendData _ w)
  · rfl

theorem iss_appcallRest (cfg : Config) (slot : Slot nT nU) (w : Stack nT nU) :
    (appcallRest cfg slot w).iss = w.iss := by
  have hpoll : ∀ v : Stack nT nU, (onPoll cfg slot v).iss = v.iss := fun v => by
    unfold onPoll
    split
    · exact iss_uipXtcpdHandlePoll cfg slot v
    · rfl
  have hpush : ∀ v : Stack nT nU, (onPush cfg slot v).iss = v.iss := fun v => by
    unfold onPush
    split
    · exact iss_xtcpdEvent cfg .pushData slot v
    · rfl
  have hclosed : ∀ v : Stack nT nU, (onClosed cfg slot v).iss = v.iss := fun v => by
    unfold onClosed
    split
    · exact iss_xtcpdEvent cfg .closed slot _
    · rfl
  rw [appcallRest, hclosed, hpush, hpoll, iss_onRexmit, iss_onAcked]

theorem iss_xtcpdAppcall (cfg : Config) (slot : Slot nT nU) (w : Stack nT nU) :
    (xtcpdAppcall cfg slot w).iss = w.iss := by
  have hsource : (udpSource slot w).iss = w.iss := by
    cases slot with
    | tcp i => rfl
    | udp i =>
      unfold udpSource
      dsimp only
      split <;> rfl
  have hconnected : (onConnected cfg slot (udpSource slot w)).iss = w.iss := by
    rw [← hsource]
    unfold onConnected
    split
    · exact (iss_xtcpdEvent cfg .newConnection slot _).trans (iss_xtcpdInitState _ slot)
    · rfl
  unfold xtcpdAppcall
  split
  · exact iss_uipSend _ _
  rw [← hconnected]
  unfold appcallData
  split
  · rw [iss_appcallRest, iss_onNewdata]
  split
  · exact iss_xtcpdEvent cfg .aborted slot _
  split
  · exact iss_xtcpdEvent cfg .timedOut slot _
  · exact iss_appcallRest cfg slot _

theorem iss_appsend (cfg : Config) (i : Fin nT) (w : Stack nT nU) :
    (appsend cfg i w).iss = w.iss := by
  have hrexmit : ∀ v : Stack nT nU, (apprexmit cfg i v).iss = v.iss := fun v => by
    unfold apprexmit
    split
    · rfl
    split <;> rfl
  have hdata : ∀ v : Stack nT nU, (appsendData i v).iss = v.iss := fun v => by
    unfold appsendData
    split
    · dsimp only
      split <;> split <;> rfl
    · rfl
  unfold appsend
  split
  · rfl
  split
  · rfl
  · rw [hrexmit, hdata, iss_setTcp]

theorem iss_retransmit (cfg : Config) (i : Fin nT) (w : Stack nT nU) :
    (retransmit cfg i w).iss = w.iss := by
  unfold retransmit
  dsimp only
  split
  case h_3 =>
    unfold apprexmit
    split
    · exact iss_xtcpdAppcall cfg (.tcp i) _
    split <;> exact iss_xtcpdAppcall cfg (.tcp i) _
  all_goals rfl

theorem iss_outstandingTimer (cfg : Config) (i : Fin nT) (w : Stack nT nU) :
    (outstandingTimer cfg i w).iss = w.iss := by
  unfold outstandingTimer
  dsimp only
  split
  · split
    · exact iss_xtcpdAppcall cfg (.tcp i) _
    · exact iss_retransmit cfg i _
  · rfl

theorem iss_periodicConn (cfg : Config) (i : Fin nT) (w : Stack nT nU) :
    (periodicConn cfg i w).iss = w.iss := by
  unfold periodicConn
  dsimp only
  split
  · split <;> rfl
  split
  · rfl
  split
  · exact iss_outstandingTimer cfg i w
  split
  · exact (iss_appsend cfg i _).trans (iss_xtcpdAppcall cfg (.tcp i) _)
  · rfl

theorem iss_periodic (cfg : Config) (i : Fin nT) (w : Stack nT nU) :
    (periodic cfg i w).iss = incrementedApart w.iss := iss_periodicConn cfg i _

theorem reset_acknowledges_iff (seg : Segment) (w : Stack nT nU) :
    (∀ sent, (reset seg w).wire = w.wire ++ sent → ∀ r ∈ sent, r.ackno = seg.seqno + 1) ↔
      seg.rst = true ∨ (seg.seqno.extractLsb' 16 8).toNat < 128 := by
  rw [← incremented_eq_iff]
  unfold reset
  split
  · rename_i hrst
    refine iff_of_true (fun sent hsent r hr => ?_) (Or.inl hrst)
    have hnil : sent = [] := List.self_eq_append_right.mp hsent
    rw [hnil] at hr
    exact absurd hr (List.not_mem_nil)
  · rename_i hrst
    refine ⟨fun h => Or.inr (h _ rfl _ (List.mem_singleton_self _)), fun h sent hsent r hr => ?_⟩
    rw [← List.append_cancel_left hsent] at hr
    rw [List.mem_singleton.mp hr]
    exact h.resolve_left hrst

theorem increment_word_exact (uipBuf a : Nat) (mem : Bytes) (cfg : Config) (i : Fin nT)
    (seg : Segment) (w : Stack nT nU) :
    (Incremented a mem (xtcpIncrementWord uipBuf a mem) ↔
      a = acknoAddr uipBuf ∧ a % 2 = 0 ∧ (mem (a + 1)).toNat < 128) ∧
    (Incremented a mem (V6.xtcpIncrementWord a mem) ↔
      a % 2 = 0 ∧ (mem (a + 1)).toNat < 128) ∧
    (periodic cfg i w).iss ≠ w.iss + 1 ∧
    ((∀ sent, (reset seg w).wire = w.wire ++ sent → ∀ r ∈ sent, r.ackno = seg.seqno + 1) ↔
      seg.rst = true ∨ (seg.seqno.extractLsb' 16 8).toNat < 128) := by
  refine ⟨incremented_iff uipBuf a mem, v6_incremented_iff a mem, ?_,
    reset_acknowledges_iff seg w⟩
  rw [iss_periodic]
  exact incrementedApart_ne w.iss

theorem increment_word_fails :
    ¬ ∀ uipBuf a : Nat, ∀ mem : Bytes, Incremented a mem (xtcpIncrementWord uipBuf a mem) ∧
      Incremented a mem (V6.xtcpIncrementWord a mem) := by
  intro h
  have h' := (incremented_iff 0 100 fun _ => 0).mp (h 0 100 fun _ => 0).1
  exact absurd h'.1 (by decide)

end Xtcp.Uip

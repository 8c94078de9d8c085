import Xtcp.Uip.FlowServe
import Xtcp.Uip.TcpCalls

namespace Xtcp.Uip
open Channel Listen Labelled

variable {nT nU : Nat} {win : Nat} {i : Fin nT} {d : Bool} {slot : Slot nT nU}

theorem flow_sendEvent (slot : Slot nT nU) (cfg : Config) (event : XtcpEvent)
    (ready link : Option Nat)
    (w : Stack nT nU) :
    (xtcpdSendEvent cfg slot event ready link w).flow i d =
      { w.flow i d with
        received := w.log.countP (Entry.isRecv i) +
          if slot == .tcp i && event == .recvData then 1 else 0 } := by
  have hconn := flow_setConn (i := i) (d := d) w slot
    fun c => { c with event := event.code cfg.pushNotification }
  refine Flow.ext rfl rfl rfl ?_ ?_ ?_ rfl ?_ rfl rfl
  · exact (congrArg Flow.ackRequest hconn :)
  · exact (congrArg Flow.ackRecvMode hconn :)
  · exact (congrArg Flow.conns hconn :)
  · show (w.log ++ [_]).countP _ = _
    rw [List.countP_append, List.countP_singleton]
    rfl

theorem flow_sendEvent_other (slot : Slot nT nU) (cfg : Config) {event : XtcpEvent}
    (ready link : Option Nat)
    (w : Stack nT nU) (h : event ≠ .recvData) :
    (xtcpdSendEvent cfg slot event ready link w).flow i d = w.flow i d := by
  have he : (event == XtcpEvent.recvData) = false := beq_false_of_ne h
  rw [flow_sendEvent, he, Bool.and_false]
  rfl

theorem moves_event (slot : Slot nT nU) (cfg : Config) {event : XtcpEvent} (w : Stack nT nU)
    (h : event ≠ .recvData) :
    Moves win i (w.flow i d) ((xtcpdEvent cfg event slot w).flow i d) := by
  unfold xtcpdEvent
  split
  · exact .refl
  next ready _ =>
    dsimp only
    rw [flow_sendEvent_other _ cfg _ _ _ h]
    exact moves_untilReady w cfg slot event (some ready)

theorem flow_xtcpdSend (slot : Slot nT nU) (cfg : Config) {event : XtcpEvent}
    (ready link : Option Nat) (mss : Nat)
    (w : Stack nT nU) (h : event ≠ .recvData) :
    (xtcpdSend cfg slot event ready link mss w).2.flow i d = w.flow i d := by
  have hs := flow_sendEvent_other (i := i) (d := d) slot cfg ready link
    (w.setConn slot fun c => { c with mss := mss }) h
  exact hs.trans (flow_setConn w slot _)

theorem moves_doXtcpdSend (slot : Slot nT nU) (cfg : Config) {event : XtcpEvent} (link mss : Nat)
    (w : Stack nT nU)
    (h : event ≠ .recvData) :
    Moves win i (w.flow i d) ((doXtcpdSend cfg slot event link mss w).2.flow i d) := by
  refine (moves_untilReady w cfg slot event (some link)).trans (.of_eq ?_)
  exact (flow_xtcpdSend _ cfg _ _ mss _ h).symm

theorem flow_uipSend (len : Nat) (w : Stack nT nU) : (uipSend len w).flow i d = w.flow i d := by
  unfold uipSend
  split <;> rfl

-- The rounds end with the one whose data the client takes.
theorem recvRounds_last (slot : Slot nT nU) (cfg : Config) (link ready : Option Nat)
    (answers : List Bool)
    (w : Stack nT nU) (hd : slot = .tcp i → d = true) :
    ∃ w₁ r, Moves win i (w.flow i d) (w₁.flow i d) ∧
      ((recvRounds cfg slot link ready answers w).flow i d =
        (xtcpdSendEvent cfg slot .recvData r link w₁).flow i d) := by
  induction answers generalizing ready w with
  | nil => exact ⟨w, ready, .refl, rfl⟩
  | cons b answers ih =>
    cases b with
    | true => exact ⟨w, ready, .refl, rfl⟩
    | false =>
      obtain ⟨w₁, r, hm, he⟩ := ih link (untilReady cfg slot .recvData link
        (xtcpdSendEvent cfg slot .recvData ready link w))
      refine ⟨w₁, r, ?_, he⟩
      refine .trans ?_ ((moves_untilReady _ cfg slot .recvData link).trans hm)
      rw [flow_sendEvent]
      by_cases hs : slot = .tcp i
      · have hb : (slot == .tcp i) = true := beq_of_eq hs
        rw [hb]
        exact .act (.round (w.flow i d) (hd hs)) rfl
      · have hb : (slot == .tcp i) = false := beq_false_of_ne hs
        rw [hb]
        exact .refl

theorem flow_uipStop (slot : Slot nT nU) (w : Stack nT nU) :
    (uipStop slot w).flow i d =
      if slot = .tcp i then { w.flow i d with stopped := true } else w.flow i d := by
  unfold uipStop
  split
  next j =>
    by_cases hj : j = i
    · subst hj
      rw [if_pos rfl, flow_setTcp]
      rfl
    · have hs : (Slot.tcp j : Slot nT nU) ≠ .tcp i := fun h => hj (Slot.tcp.inj h)
      rw [if_neg hs]
      exact flow_setTcp_same w j _ fun h => absurd h hj
  next j =>
    rw [if_neg (fun h => nomatch h)]

theorem moves_onNewdata (slot : Slot nT nU) (cfg : Config) (w : Stack nT nU)
    (hd : slot = .tcp i → d = true) :
    Moves win i (w.flow i d) ((onNewdata cfg slot w).flow i d) := by
  unfold onNewdata
  split
  · exact .refl
  next ready _ =>
    dsimp only
    unfold xtcpdRecv
    dsimp only
    refine (moves_untilReady w cfg slot .recvData (some ready)).trans ?_
    generalize untilReady cfg slot .recvData (some ready) w = w₀
    obtain ⟨w₁, r, hm, he⟩ := recvRounds_last slot cfg (w₀.app slot).linknum (some ready)
      w₀.env.ready w₀ hd
    refine Moves.trans hm ?_
    generalize recvRounds cfg slot (w₀.app slot).linknum (some ready) w₀.env.ready w₀ = w₂ at he ⊢
    rw [flow_sendEvent] at he
    by_cases hs : slot = .tcp i
    · subst hs
      have hmode : (w₂.app (.tcp i)).s.ackRecvMode = (w₁.flow i d).ackRecvMode :=
        congrArg Flow.ackRecvMode he
      refine .trans (.act (.taken (w₁.flow i d) (hd rfl)) rfl) (.of_eq ?_)
      rw [hmode]
      by_cases hack : (w₁.flow i d).ackRecvMode = true
      · rw [if_pos hack, flow_uipStop, if_pos rfl, he, beq_self_eq_true, beq_self_eq_true]
        refine Flow.ext rfl ?_ rfl rfl rfl rfl rfl rfl rfl rfl
        show (_ || _) = true
        rw [hack, Bool.or_true]
      · rw [if_neg hack, he, beq_self_eq_true, beq_self_eq_true]
        refine Flow.ext rfl ?_ rfl rfl rfl rfl rfl rfl rfl rfl
        show (_ || _) = _
        rw [Bool.eq_false_iff.mpr hack, Bool.or_false]
    · have hb : (slot == .tcp i) = false := beq_false_of_ne hs
      have he' : w₂.flow i d = w₁.flow i d := by
        rw [he, hb]
        rfl
      refine .of_eq ?_
      split
      · rw [flow_uipStop, if_neg hs]
        exact he'.symm
      · exact he'.symm

theorem moves_onAcked (slot : Slot nT nU) (cfg : Config) (w : Stack nT nU) :
    Moves win i (w.flow i d) ((onAcked cfg slot w).flow i d) := by
  unfold onAcked
  split
  · split
    · exact .refl
    · dsimp only
      rw [flow_uipSend]
      exact moves_doXtcpdSend _ cfg _ _ w (by decide)
  · exact .refl

theorem moves_onRexmit (slot : Slot nT nU) (cfg : Config) (w : Stack nT nU) :
    Moves win i (w.flow i d) ((onRexmit cfg slot w).flow i d) := by
  unfold onRexmit
  split
  · split
    · exact .refl
    next ready _ =>
      dsimp only
      rw [flow_uipSend]
      refine (moves_untilReady w cfg slot .resendData (some ready)).trans (.of_eq ?_)
      exact (flow_xtcpdSend _ cfg _ _ _ _ (by decide)).symm
  · exact .refl

theorem moves_onPush (slot : Slot nT nU) (cfg : Config) (w : Stack nT nU) :
    Moves win i (w.flow i d) ((onPush cfg slot w).flow i d) := by
  unfold onPush
  split
  · exact moves_event _ cfg w (by decide)
  · exact .refl

theorem moves_onClosed (slot : Slot nT nU) (cfg : Config) (w : Stack nT nU) :
    Moves win i (w.flow i d) ((onClosed cfg slot w).flow i d) := by
  unfold onClosed
  split
  · rw [← flow_setS_same w slot (fun s => { s with closed := true }) (fun _ => rfl)
      (fun _ => rfl) fun _ => rfl]
    exact moves_event _ cfg _ (by decide)
  · exact .refl

theorem flow_issued (w : Stack nT nU) (slot : Slot nT nU) (f : Xtcpd nT nU → Xtcpd nT nU)
    (guid : Nat) (owner : Slot nT nU → Option Nat) :
    ({ (w.setApp slot fun _ => .zero).setApp slot f with
        guid := guid, owner := owner, log := w.log ++ [Entry.issued slot guid] }).flow i d =
      ((w.setApp slot fun _ => .zero).setApp slot f).flow i d := by
  refine Flow.ext rfl rfl rfl rfl rfl rfl rfl ?_ rfl rfl
  show (w.log ++ [_]).countP _ = w.log.countP _
  rw [List.countP_append, List.countP_singleton]
  rfl

theorem flow_initState (w : Stack nT nU) (slot : Slot nT nU) :
    ∃ conn, (conn = none ∨ conn = some slot) ∧
      (xtcpdInitState w slot).flow i d =
        { (w.flow i d).connect slot conn with
          ackRequest := if slot = .tcp i then false else (w.app (.tcp i)).s.ackRequest
          ackRecvMode := if slot = .tcp i then false else (w.app (.tcp i)).s.ackRecvMode } := by
  unfold xtcpdInitState
  dsimp only
  split
  · refine ⟨none, Or.inl rfl, ?_⟩
    show (w.setApp slot fun _ => .zero).flow i d = _
    rw [flow_setApp]
    rfl
  · refine ⟨some slot, Or.inr rfl, ?_⟩
    rw [flow_issued, flow_setApp, flow_setApp]
    refine Flow.ext rfl rfl rfl ?_ ?_ ?_ rfl rfl rfl rfl
    · show (if _ then _ else _) = if _ then _ else _
      split
      · rfl
      next hs => exact congrArg (·.s.ackRequest) (Function.update_of_ne (Ne.symm hs) _ w.app)
    · show (if _ then _ else _) = if _ then _ else _
      split
      · rfl
      next hs => exact congrArg (·.s.ackRecvMode) (Function.update_of_ne (Ne.symm hs) _ w.app)
    · exact Function.update_idem _ _ _

theorem moves_initState (slot : Slot nT nU) (w : Stack nT nU) (hs : slot ≠ .tcp i) :
    Moves win i (w.flow i d) ((xtcpdInitState w slot).flow i d) := by
  obtain ⟨conn, hc, he⟩ := flow_initState (i := i) (d := d) w slot
  rw [he, if_neg hs, if_neg hs]
  exact .act (.init _ slot conn hs hc) rfl

theorem moves_onConnected (slot : Slot nT nU) (cfg : Config) (w : Stack nT nU)
    (hs : slot ≠ .tcp i) :
    Moves win i (w.flow i d) ((onConnected cfg slot w).flow i d) := by
  unfold onConnected
  split
  · exact (moves_initState _ w hs).trans (moves_event _ cfg _ (by decide))
  · exact .refl

theorem moves_endConnection (slot : Slot nT nU) (cfg : Config)
    (tcpEnd : Stack nT nU → Stack nT nU) (w : Stack nT nU)
    (h : (tcpEnd w).flow i d = w.flow i d) :
    Moves win i (w.flow i d) ((endConnection cfg slot tcpEnd w).flow i d) := by
  unfold endConnection
  split
  · exact .of_eq h.symm
  next j =>
    exact moves_event _ cfg (w.setUdp j fun c => { c with lport := 0 }) (by decide)

theorem Moves.setS {a : Flow nT nU} {w : Stack nT nU} (h : Moves win i a (w.flow i d))
    (slot : Slot nT nU) (f : ServerState nT nU → ServerState nT nU)
    (hconn : ∀ s, (f s).uipConn = s.uipConn) (hreq : ∀ s, (f s).ackRequest = s.ackRequest)
    (hmode : ∀ s, (f s).ackRecvMode = s.ackRecvMode) : Moves win i a ((w.setS slot f).flow i d) :=
  h.trans (.of_eq (flow_setS_same w slot f hconn hreq hmode).symm)

theorem moves_pollConnect (slot : Slot nT nU) (cfg : Config) (w : Stack nT nU) :
    Moves win i (w.flow i d) ((pollConnect cfg slot w).flow i d) := by
  unfold pollConnect
  split
  · exact .refl
  next j =>
    refine Moves.setS ?_ _ _ (fun _ => rfl) (fun _ => rfl) fun _ => rfl
    exact (moves_initState (.udp j) w nofun).trans (moves_event _ cfg _ (by decide))

theorem moves_pollSend (slot : Slot nT nU) (cfg : Config) (w : Stack nT nU) :
    Moves win i (w.flow i d) ((pollSend cfg slot w).flow i d) := by
  unfold pollSend
  refine Moves.setS ?_ _ _ (fun _ => rfl) (fun _ => rfl) fun _ => rfl
  split
  · exact .refl
  · rw [flow_uipSend]
    exact moves_doXtcpdSend _ cfg _ _ w (by decide)

theorem moves_pollTimer (slot : Slot nT nU) (cfg : Config) (w : Stack nT nU) :
    Moves win i (w.flow i d) ((pollTimer cfg slot w).flow i d) := by
  unfold pollTimer
  split
  · exact .refl
  · dsimp only
    split
    · exact moves_event _ cfg (timerExpired w).2 (by decide)
    · exact .refl

-- What uip_xtcpd_handle_poll does after the request for an acknowledgement.
def pollRest (cfg : Config) (slot : Slot nT nU) (w : Stack nT nU) : Stack nT nU :=
  if (w.app slot).s.abortRequest then
    (endConnection cfg slot uipAbort w).setS slot fun s => { s with abortRequest := false }
  else if (w.app slot).s.closeRequest then
    (endConnection cfg slot uipClose w).setS slot fun s => { s with closeRequest := false }
  else if (w.app slot).s.connectRequest then pollConnect cfg slot w
  else if (w.app slot).s.sendRequest > 0 then pollSend cfg slot w
  else pollTimer cfg slot w

theorem handlePoll_eq (cfg : Config) (slot : Slot nT nU) (w : Stack nT nU) :
    uipXtcpdHandlePoll cfg slot w = pollRest cfg slot (pollAck slot w) := rfl

theorem moves_pollRest (slot : Slot nT nU) (cfg : Config) (w : Stack nT nU) :
    Moves win i (w.flow i d) ((pollRest cfg slot w).flow i d) := by
  unfold pollRest
  split
  · refine Moves.setS ?_ _ _ (fun _ => rfl) (fun _ => rfl) fun _ => rfl
    exact moves_endConnection _ cfg uipAbort w rfl
  split
  · refine Moves.setS ?_ _ _ (fun _ => rfl) (fun _ => rfl) fun _ => rfl
    exact moves_endConnection _ cfg uipClose w rfl
  split
  · exact moves_pollConnect _ cfg w
  split
  · exact moves_pollSend _ cfg w
  · exact moves_pollTimer _ cfg w

theorem flow_pollAck (slot : Slot nT nU) (w : Stack nT nU) :
    (pollAck slot w).flow i d =
      if slot = .tcp i then { w.flow i d with ackRequest := false } else w.flow i d := by
  unfold pollAck
  split
  · show (w.setS slot fun s => { s with ackRequest := false }).flow i d = _
    split
    next hs =>
      subst hs
      rw [Stack.setS, flow_setApp]
      refine Flow.ext rfl rfl rfl ?_ ?_ ?_ rfl rfl rfl rfl
      · exact if_pos rfl
      · exact if_pos rfl
      · exact Function.update_eq_self _ _
    next hs => exact flow_setApp_same w slot _ rfl (fun h => absurd h hs) fun h => absurd h hs
  next hack =>
    split
    next hs =>
      subst hs
      have hf : (w.app (.tcp i)).s.ackRequest = false := by simpa using hack
      refine Flow.ext rfl rfl rfl hf rfl rfl rfl rfl rfl rfl
    · rfl

-- Everything in an application call but the acknowledgement of a poll.
theorem moves_appcallRest (slot : Slot nT nU) (cfg : Config) (w : Stack nT nU)
    (hpoll : w.uipFlags.poll = true → slot ≠ .tcp i) :
    Moves win i (w.flow i d) ((appcallRest cfg slot w).flow i d) := by
  have hflags : (onRexmit cfg slot (onAcked cfg slot w)).uipFlags = w.uipFlags :=
    (flags_rexmit _ cfg _).trans (flags_acked _ cfg w)
  refine ((moves_onAcked slot cfg w).trans (moves_onRexmit slot cfg _)).trans ?_
  unfold appcallRest
  generalize onRexmit cfg slot (onAcked cfg slot w) = w₁ at hflags ⊢
  refine .trans ?_ ((moves_onPush _ cfg _).trans (moves_onClosed _ cfg _))
  unfold onPoll
  rw [hflags]
  split
  next hp =>
    rw [handlePoll_eq]
    refine .trans (.of_eq ?_) (moves_pollRest _ cfg _)
    rw [flow_pollAck, if_neg (hpoll hp)]
  · exact .refl

theorem moves_appcallData (slot : Slot nT nU) (cfg : Config) (w : Stack nT nU)
    (hd : w.uipFlags.newdata = true → 0 < w.uipLen → slot = .tcp i → d = true)
    (hpoll : w.uipFlags.poll = true → slot ≠ .tcp i) :
    Moves win i (w.flow i d) ((appcallData cfg slot w).flow i d) := by
  unfold appcallData
  split
  next hnew =>
    simp only [Bool.and_eq_true, decide_eq_true_eq] at hnew
    refine (moves_onNewdata _ cfg w (hd hnew.1 hnew.2)).trans (moves_appcallRest _ cfg _ ?_)
    rw [flags_newdata]
    exact hpoll
  split
  · exact moves_event _ cfg w (by decide)
  split
  · exact moves_event _ cfg w (by decide)
  · exact moves_appcallRest _ cfg w hpoll

theorem flow_udpSource (slot : Slot nT nU) (w : Stack nT nU) :
    (udpSource slot w).flow i d = w.flow i d := by
  unfold udpSource
  split
  · rfl
  · split
    · exact flow_setConn w _ _
    · rfl

theorem flags_onConnected (slot : Slot nT nU) (cfg : Config) (w : Stack nT nU) :
    (onConnected cfg slot w).uipFlags = w.uipFlags := by
  unfold onConnected
  split
  · exact (flags_event _ cfg .newConnection _).trans (congrArg Prod.fst (regs_initState w slot))
  · rfl

theorem moves_appcall_other (slot : Slot nT nU) (cfg : Config) (w : Stack nT nU)
    (hs : slot ≠ .tcp i) :
    Moves win i (w.flow i d) ((xtcpdAppcall cfg slot w).flow i d) := by
  unfold xtcpdAppcall
  split
  · unfold dhcpcAppcall
    rw [flow_uipSend]
    exact .refl
  · refine .trans (.of_eq (flow_udpSource slot w).symm) ((moves_onConnected slot cfg _ hs).trans ?_)
    exact moves_appcallData _ cfg _ (fun _ _ h => absurd h hs) fun _ => hs

end Xtcp.Uip

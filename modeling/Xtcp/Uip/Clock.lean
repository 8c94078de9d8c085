import Xtcp.Uip.Serve
import Xtcp.Uip.Server

namespace Xtcp.Uip
open Channel Listen

variable {nT nU : Nat}

-- What the retransmission timer of a connection works on.
structure Clock where
  timer : BitVec 8
  nrtx : BitVec 8
  len : Nat
  state : TcpState
  deriving DecidableEq, Repr

def TcpConn.clock (c : TcpConn) : Clock := ⟨c.timer, c.nrtx, c.len, c.tcpstateflags.state⟩

def Stack.clock (w : Stack nT nU) (i : Fin nT) : Clock := (w.tcp i).clock

-- No command takes the slot for another connection.
def Clock.Held (k : Clock) : Prop := k.state ≠ .closed ∧ k.state ≠ .timeWait

section Commands

variable {i : Fin nT} {k : Clock} {w : Stack nT nU}

theorem clock_setTcp_same {j : Fin nT} {f : TcpConn → TcpConn} (hf : ∀ c, (f c).clock = c.clock)
    (h : w.clock i = k) : (w.setTcp j f).clock i = k := by
  by_cases hj : i = j
  · subst hj
    rw [Stack.clock, Stack.setTcp]
    dsimp only
    rw [Function.update_self, hf]
    exact h
  · rw [Stack.clock, Stack.setTcp]
    dsimp only
    rw [Function.update_of_ne hj]
    exact h

theorem clock_setTcp_ne {j : Fin nT} {f : TcpConn → TcpConn} (hj : i ≠ j) (h : w.clock i = k) :
    (w.setTcp j f).clock i = k := by
  rw [Stack.clock, Stack.setTcp]
  dsimp only
  rw [Function.update_of_ne hj]
  exact h

theorem unusedTcp_ne {j : Fin nT} (hk : k.Held) (h : w.clock i = k) (hj : unusedTcp w = some j) :
    i ≠ j := by
  rintro rfl
  have hfree : (w.state i = .closed) ∨ (w.state i = .timeWait) := unusedTcp_free w none hj
  have hstate : w.state i = k.state := congrArg Clock.state h
  rcases hfree with hc | ht
  · exact hk.1 (hstate.symm.trans hc)
  · exact hk.2 (hstate.symm.trans ht)

theorem clock_setStopped (h : w.clock i = k) (o : Option (Slot nT nU)) :
    (setStopped w o).clock i = k := by
  rcases o with - | j | j
  · exact h
  · rw [setStopped]
    exact clock_setTcp_same (fun _ => rfl) h
  · exact h

theorem clock_clearStopped (h : w.clock i = k) (o : Option (Slot nT nU)) :
    (clearStopped w o).clock i = k := by
  rcases o with - | j | j
  · exact h
  · rw [clearStopped]
    exact clock_setTcp_same (fun _ => rfl) h
  · exact h

theorem clock_onState (h : w.clock i = k) {connId : Nat} {f : Slot nT nU → Stack nT nU}
    (hf : ∀ slot, (f slot).clock i = k) : (onState w connId f).clock i = k := by
  unfold onState
  split
  · exact h
  · exact hf _

theorem clock_xtcpdConnect (hk : k.Held) (cfg : Config) (h : w.clock i = k)
    (linknum portNumber : Nat) (addr : Ipaddr) (p : Protocol) :
    (xtcpdConnect cfg w linknum portNumber addr p).clock i = k := by
  cases p with
  | tcp =>
    simp only [xtcpdConnect, uipConnect]
    cases hj : unusedTcp { w with lastport := freePort (tcpPortUsed w) nT w.lastport } with
    | none => exact h
    | some j =>
      have hne := unusedTcp_ne hk h hj
      exact (congrArg TcpConn.clock (Function.update_of_ne hne _ w.tcp)).trans h
  | udp =>
    simp only [xtcpdConnect, uipUdpNew]
    cases unusedUdp _ <;> exact h

theorem clock_xtcpdBindLocal (h : w.clock i = k) (connId portNumber : Nat) :
    (xtcpdBindLocal w connId portNumber).clock i = k := by
  unfold xtcpdBindLocal
  split
  · exact h
  · dsimp only
    split
    · exact h
    · exact clock_setTcp_same (fun _ => rfl) h
    · exact h

theorem clock_xtcpdBindRemote (h : w.clock i = k) (connId portNumber : Nat) (addr : Ipaddr) :
    (xtcpdBindRemote w connId addr portNumber).clock i = k := by
  unfold xtcpdBindRemote
  split
  · exact h
  · split
    · dsimp only
      split
      · exact h
      · exact clock_setTcp_same (fun _ => rfl) h
      · exact h
    · exact h

theorem clock_runCommand (hk : k.Held) (cfg : Config) (h : w.clock i = k) (c : Nat × Command) :
    (runCommand cfg w c).clock i = k := by
  obtain ⟨linknum, c⟩ := c
  cases c with
  | listen port p =>
    cases p with
    | tcp => exact h
    | udp => exact h
  | connect port addr p => exact clock_xtcpdConnect hk cfg h linknum port addr p
  | bindLocal connId port => exact clock_xtcpdBindLocal h connId port
  | bindRemote connId addr port => exact clock_xtcpdBindRemote h connId port addr
  | pause connId => exact clock_onState h fun slot => clock_setStopped h _
  | unpause connId => exact clock_onState h fun slot => clock_clearStopped h _
  | ackRecv connId => exact clock_onState h fun slot => clock_clearStopped h _
  | setPollInterval connId interval =>
    refine clock_onState h fun slot => ?_
    split
    · exact h
    · exact h
  | initSend | setAppstate | close | abort | ackRecvMode => exact clock_onState h fun slot => h
  | _ => exact h

theorem clock_runCommands (hk : k.Held) (cfg : Config) (h : w.clock i = k)
    (cs : List (Nat × Command)) : (runCommands cfg w cs).clock i = k := by
  induction cs generalizing w with
  | nil => exact h
  | cons c cs ih => exact ih (clock_runCommand hk cfg h c)

end Commands

section Appcall

variable {i : Fin nT} {k : Clock} {w : Stack nT nU} {cfg : Config} {slot : Slot nT nU}

theorem clock_untilReady (hk : k.Held) (h : w.clock i = k) (event : XtcpEvent)
    (ready : Option Nat) : (untilReady cfg slot event ready w).clock i = k :=
  clock_runCommands hk cfg (w := w.wait slot event ready) h _

theorem clock_xtcpdEvent (hk : k.Held) (h : w.clock i = k) (event : XtcpEvent) :
    (xtcpdEvent cfg event slot w).clock i = k := by
  unfold xtcpdEvent
  split
  · exact h
  · exact clock_untilReady hk h event _

theorem clock_recvRounds (hk : k.Held) (h : w.clock i = k) (link ready : Option Nat)
    (answers : List Bool) : (recvRounds cfg slot link ready answers w).clock i = k := by
  induction answers generalizing ready w with
  | nil => exact h
  | cons answer answers ih =>
    cases answer with
    | false =>
      have hsent : (xtcpdSendEvent cfg slot .recvData ready link w).clock i = k := h
      exact ih (clock_untilReady hk hsent .recvData link) link
    | true => exact h

theorem clock_xtcpdRecv (hk : k.Held) (h : w.clock i = k) (ready : Nat) :
    (xtcpdRecv cfg slot ready w).clock i = k :=
  clock_recvRounds hk (clock_untilReady hk h .recvData _) _ _ _

theorem clock_doXtcpdSend (hk : k.Held) (h : w.clock i = k) (event : XtcpEvent) (link mss : Nat) :
    (doXtcpdSend cfg slot event link mss w).2.clock i = k :=
  clock_untilReady hk h event (some link)

theorem clock_uipSend (h : w.clock i = k) (len : Nat) : (uipSend len w).clock i = k := by
  unfold uipSend
  split
  · exact h
  · exact h

theorem clock_endConnection (hk : k.Held) (h : w.clock i = k)
    {tcpEnd : Stack nT nU → Stack nT nU} (hend : (tcpEnd w).clock i = k) :
    (endConnection cfg slot tcpEnd w).clock i = k := by
  cases slot with
  | tcp j => exact hend
  | udp j =>
    exact clock_xtcpdEvent hk (w := w.setUdp j fun c => { c with lport := 0 }) h .closed

theorem clock_xtcpdInitState (h : w.clock i = k) : (xtcpdInitState w slot).clock i = k := by
  unfold xtcpdInitState
  dsimp only
  split
  · exact h
  · exact h

theorem clock_pollConnect (hk : k.Held) (h : w.clock i = k) :
    (pollConnect cfg slot w).clock i = k := by
  cases slot with
  | tcp j => exact h
  | udp j => exact clock_xtcpdEvent hk (clock_xtcpdInitState h) .newConnection

theorem clock_pollSend (hk : k.Held) (h : w.clock i = k) : (pollSend cfg slot w).clock i = k := by
  unfold pollSend
  dsimp only
  split
  · exact h
  · exact clock_uipSend (clock_doXtcpdSend hk h .requestData _ _) _

theorem clock_pollTimer (hk : k.Held) (h : w.clock i = k) :
    (pollTimer cfg slot w).clock i = k := by
  unfold pollTimer
  split
  · exact h
  · have htimer : (timerExpired w).2.clock i = k := h
    dsimp only
    split
    · exact clock_xtcpdEvent hk htimer .poll
    · exact htimer

theorem clock_uipXtcpdHandlePoll (hk : k.Held) (h : w.clock i = k) :
    (uipXtcpdHandlePoll cfg slot w).clock i = k := by
  have hack : (pollAck slot w).clock i = k := by
    unfold pollAck
    split
    · exact h
    · exact h
  unfold uipXtcpdHandlePoll
  dsimp only
  split
  · exact clock_endConnection hk hack hack
  split
  · exact clock_endConnection hk hack hack
  split
  · exact clock_pollConnect hk hack
  split
  · exact clock_pollSend hk hack
  · exact clock_pollTimer hk hack

theorem clock_onNewdata (hk : k.Held) (h : w.clock i = k) : (onNewdata cfg slot w).clock i = k := by
  unfold onNewdata
  split
  · exact h
  · have hrecv (ready : Nat) : (xtcpdRecv cfg slot ready w).clock i = k :=
      clock_xtcpdRecv hk h ready
    dsimp only
    split
    · cases slot with
      | tcp j =>
        rw [uipStop]
        exact clock_setTcp_same (fun _ => rfl) (hrecv _)
      | udp j => exact hrecv _
    · exact hrecv _

theorem clock_onAcked (hk : k.Held) (h : w.clock i = k) : (onAcked cfg slot w).clock i = k := by
  unfold onAcked
  split
  · split
    · exact h
    · exact clock_uipSend (clock_doXtcpdSend hk h .sentData _ _) _
  · exact h

theorem clock_onRexmit (hk : k.Held) (h : w.clock i = k) : (onRexmit cfg slot w).clock i = k := by
  unfold onRexmit
  split
  · split
    · exact h
    · have hready (ready : Option Nat) : (untilReady cfg slot .resendData ready w).clock i = k :=
        clock_untilReady hk h .resendData ready
      dsimp only
      exact clock_uipSend (w := (xtcpdSend cfg slot .resendData _ _ _ _).2) (hready _) _
  · exact h

theorem clock_appcallRest (hk : k.Held) (h : w.clock i = k) :
    (appcallRest cfg slot w).clock i = k := by
  have hpoll : ∀ v : Stack nT nU, v.clock i = k → (onPoll cfg slot v).clock i = k := by
    intro v hv
    unfold onPoll
    split
    · exact clock_uipXtcpdHandlePoll hk hv
    · exact hv
  have hpush : ∀ v : Stack nT nU, v.clock i = k → (onPush cfg slot v).clock i = k := by
    intro v hv
    unfold onPush
    split
    · exact clock_xtcpdEvent hk hv .pushData
    · exact hv
  have hclosed : ∀ v : Stack nT nU, v.clock i = k → (onClosed cfg slot v).clock i = k := by
    intro v hv
    unfold onClosed
    split
    · exact clock_xtcpdEvent (w := v.setS slot _) hk hv .closed
    · exact hv
  exact hclosed _ (hpush _ (hpoll _ (clock_onRexmit hk (clock_onAcked hk h))))

-- Whatever the clients do while they are told of an event, the timer goes on as it was.
theorem clock_xtcpdAppcall (hk : k.Held) (h : w.clock i = k) :
    (xtcpdAppcall cfg slot w).clock i = k := by
  have hsource : (udpSource slot w).clock i = k := by
    cases slot with
    | tcp j => exact h
    | udp j =>
      unfold udpSource
      dsimp only
      split
      · exact h
      · exact h
  have hconnected : (onConnected cfg slot (udpSource slot w)).clock i = k := by
    unfold onConnected
    split
    · exact clock_xtcpdEvent hk (clock_xtcpdInitState hsource) .newConnection
    · exact hsource
  unfold xtcpdAppcall
  split
  · exact clock_uipSend (w := { w with env := { w.env with lens := w.env.lens.tail } }) h _
  unfold appcallData
  split
  · exact clock_appcallRest hk (clock_onNewdata hk hconnected)
  split
  · exact clock_xtcpdEvent hk hconnected .aborted
  split
  · exact clock_xtcpdEvent hk hconnected .timedOut
  · exact clock_appcallRest hk hconnected

end Appcall

end Xtcp.Uip

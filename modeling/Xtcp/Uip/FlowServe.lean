import Xtcp.Uip.Flow

namespace Xtcp.Uip
open Channel Listen Labelled

variable {nT nU : Nat} {win : Nat} {i : Fin nT} {d : Bool} (w : Stack nT nU)

theorem flow_setTcp_same (j : Fin nT) (f : TcpConn → TcpConn)
    (h : j = i → (f (w.tcp i)).tcpstateflags = (w.tcp i).tcpstateflags ∧
      (f (w.tcp i)).rcvNxt = (w.tcp i).rcvNxt) : (w.setTcp j f).flow i d = w.flow i d := by
  by_cases hj : i = j
  · subst hj
    obtain ⟨hflags, hrcvNxt⟩ := h rfl
    refine Flow.ext ?_ ?_ ?_ rfl rfl rfl rfl rfl rfl rfl
    · show (Function.update w.tcp i _ i).tcpstateflags.state = _
      rw [Function.update_self, hflags]
      rfl
    · show (Function.update w.tcp i _ i).tcpstateflags.stopped = _
      rw [Function.update_self, hflags]
      rfl
    · show (Function.update w.tcp i _ i).rcvNxt = _
      rw [Function.update_self, hrcvNxt]
      rfl
  · have hother : (w.setTcp j f).tcp i = w.tcp i := Function.update_of_ne hj _ _
    refine Flow.ext ?_ ?_ ?_ rfl rfl rfl rfl rfl rfl rfl
    · exact congrArg (·.tcpstateflags.state) hother
    · exact congrArg (·.tcpstateflags.stopped) hother
    · exact congrArg (·.rcvNxt) hother

theorem flow_setTcp (f : TcpConn → TcpConn) :
    (w.setTcp i f).flow i d =
      { w.flow i d with
        state := (f (w.tcp i)).tcpstateflags.state
        stopped := (f (w.tcp i)).tcpstateflags.stopped
        rcvNxt := (f (w.tcp i)).rcvNxt } := by
  have hself : (w.setTcp i f).tcp i = f (w.tcp i) := Function.update_self _ _ _
  refine Flow.ext ?_ ?_ ?_ rfl rfl rfl rfl rfl rfl rfl
  · exact congrArg (·.tcpstateflags.state) hself
  · exact congrArg (·.tcpstateflags.stopped) hself
  · exact congrArg (·.rcvNxt) hself

theorem flow_setState (st : TcpState) : (w.setState i st).flow i d = (w.flow i d).setState st :=
  flow_setTcp w _

theorem flow_setUdp (j : Fin nU) (f : UdpConn → UdpConn) :
    (w.setUdp j f).flow i d = w.flow i d := rfl

theorem flow_note (e : Entry nT nU) (he : e.isRecv i = false) :
    (w.note e).flow i d = w.flow i d := by
  refine Flow.ext rfl rfl rfl rfl rfl rfl rfl ?_ rfl rfl
  show (w.log ++ [e]).countP _ = _
  rw [List.countP_append, List.countP_singleton, he]
  rfl

theorem flow_setApp (slot : Slot nT nU) (f : Xtcpd nT nU → Xtcpd nT nU) :
    (w.setApp slot f).flow i d =
      { (w.flow i d).connect slot (f (w.app slot)).s.uipConn with
        ackRequest := if slot = .tcp i then (f (w.app slot)).s.ackRequest
          else (w.app (.tcp i)).s.ackRequest
        ackRecvMode := if slot = .tcp i then (f (w.app slot)).s.ackRecvMode
          else (w.app (.tcp i)).s.ackRecvMode } := by
  have hconns : (fun s => ((w.setApp slot f).app s).s.uipConn) =
      Function.update (fun s => (w.app s).s.uipConn) slot (f (w.app slot)).s.uipConn :=
    Function.comp_update (fun x : Xtcpd nT nU => x.s.uipConn) w.app slot _
  by_cases hs : slot = .tcp i
  · subst hs
    have hself : (w.setApp (.tcp i) f).app (.tcp i) = f (w.app (.tcp i)) := Function.update_self _ _ _
    refine Flow.ext rfl rfl rfl ?_ ?_ hconns rfl rfl rfl rfl
    · exact (congrArg (·.s.ackRequest) hself).trans (if_pos rfl).symm
    · exact (congrArg (·.s.ackRecvMode) hself).trans (if_pos rfl).symm
  · have hother : (w.setApp slot f).app (.tcp i) = w.app (.tcp i) :=
      Function.update_of_ne (Ne.symm hs) _ _
    refine Flow.ext rfl rfl rfl ?_ ?_ hconns rfl rfl rfl rfl
    · exact (congrArg (·.s.ackRequest) hother).trans (if_neg hs).symm
    · exact (congrArg (·.s.ackRecvMode) hother).trans (if_neg hs).symm

theorem flow_setApp_same (slot : Slot nT nU) (f : Xtcpd nT nU → Xtcpd nT nU)
    (hconn : (f (w.app slot)).s.uipConn = (w.app slot).s.uipConn)
    (hreq : slot = .tcp i → (f (w.app slot)).s.ackRequest = (w.app slot).s.ackRequest)
    (hmode : slot = .tcp i → (f (w.app slot)).s.ackRecvMode = (w.app slot).s.ackRecvMode) :
    (w.setApp slot f).flow i d = w.flow i d := by
  rw [flow_setApp]
  refine Flow.ext rfl rfl rfl ?_ ?_ ?_ rfl rfl rfl rfl
  · show (if _ then _ else _) = _
    split
    next hs =>
      subst hs
      exact hreq rfl
    · rfl
  · show (if _ then _ else _) = _
    split
    next hs =>
      subst hs
      exact hmode rfl
    · rfl
  · show Function.update _ _ _ = _
    rw [hconn]
    exact Function.update_eq_self _ _

theorem flow_setConn (slot : Slot nT nU) (f : Conn → Conn) :
    (w.setConn slot f).flow i d = w.flow i d :=
  flow_setApp_same w slot _ rfl (fun _ => rfl) fun _ => rfl

theorem flow_setS_same (slot : Slot nT nU) (f : ServerState nT nU → ServerState nT nU)
    (hconn : ∀ s, (f s).uipConn = s.uipConn) (hreq : ∀ s, (f s).ackRequest = s.ackRequest)
    (hmode : ∀ s, (f s).ackRecvMode = s.ackRecvMode) :
    (w.setS slot f).flow i d = w.flow i d :=
  flow_setApp_same w slot _ (hconn _) (fun _ => hreq _) fun _ => hmode _

-- The commands that a wait is about to serve come before those that are left.
def Stack.serving (w : Stack nT nU) (i : Fin nT) (d : Bool) (cs : List (Nat × Command)) :
    Flow nT nU := { w.flow i d with pending := cs ++ w.env.waits.flatten }

theorem serve_act {w w' : Stack nT nU} {c : Nat × Command} {cs : List (Nat × Command)}
    (h : w'.flow i d = w.flow i d) : Moves win i (w.serving i d (c :: cs)) (w'.serving i d cs) := by
  have hw : w'.serving i d cs = { w.serving i d (c :: cs) with
      pending := cs ++ w.env.waits.flatten } := by
    have hp : w'.env.waits.flatten = w.env.waits.flatten := congrArg Flow.pending h
    unfold Stack.serving
    rw [h, hp]
  rw [hw]
  exact .act (.serve _ c _ rfl) rfl

theorem onState_cases (connId : Nat) (f : Slot nT nU → Stack nT nU) :
    onState w connId f = w ∨ ∃ slot, onState w connId f = f slot := by
  unfold onState
  split
  · exact Or.inl rfl
  next slot _ => exact Or.inr ⟨slot, rfl⟩

theorem flow_onState (connId : Nat) (f : Slot nT nU → Stack nT nU)
    (h : ∀ slot, (f slot).flow i d = w.flow i d) : (onState w connId f).flow i d = w.flow i d := by
  rcases onState_cases w connId f with hw | ⟨slot, hw⟩
  · rw [hw]
  · rw [hw]
    exact h slot

theorem flow_bindLocal (connId portNumber : Nat) :
    (xtcpdBindLocal w connId portNumber).flow i d = w.flow i d := by
  unfold xtcpdBindLocal
  split
  · rfl
  · dsimp only
    rw [← flow_setConn w _ fun c => { c with localPort := portNumber }]
    split
    · rfl
    · rw [flow_setTcp_same _ _ _ fun _ => ⟨rfl, rfl⟩]
      exact flow_note _ _ rfl
    · rw [flow_setUdp]
      exact flow_note _ _ rfl

theorem flow_bindRemote (connId : Nat) (addr : Ipaddr) (portNumber : Nat) :
    (xtcpdBindRemote w connId addr portNumber).flow i d = w.flow i d := by
  unfold xtcpdBindRemote
  split
  · rfl
  · split
    · dsimp only
      rw [← flow_setConn w _ fun c =>
        { c with remotePort := portNumber, remoteAddr := ipaddrWord addr }]
      split
      · rfl
      · exact flow_setTcp_same _ _ _ fun _ => ⟨rfl, rfl⟩
      · rfl
    · rfl

theorem flow_requestConnect (slot : Slot nT nU) (linknum : Nat) :
    (requestConnect w slot linknum).flow i d = w.flow i d := by
  unfold requestConnect
  rw [flow_setApp_same _ _ _ rfl (fun _ => rfl) fun _ => rfl]
  exact flow_note w _ rfl

theorem unusedTcp_state {j : Fin nT} (h : unusedTcp w = some j) :
    w.state j = .closed ∨ w.state j = .timeWait := unusedTcp_free w none h

theorem moves_connect (cfg : Config) (linknum port : Nat) (addr : Ipaddr) (p : Protocol)
    (cs : List (Nat × Command)) :
    Moves win i (w.serving i d ((linknum, .connect port addr p) :: cs))
      ((xtcpdConnect cfg w linknum port addr p).serving i d cs) := by
  cases p with
  | tcp =>
    unfold xtcpdConnect uipConnect
    dsimp only
    cases hj : unusedTcp { w with lastport := freePort (tcpPortUsed w) nT w.lastport } with
    | none => exact serve_act rfl
    | some j =>
      simp only
      by_cases hi : j = i
      · subst hi
        refine .trans (.act (.connect _ linknum port addr _ rfl (unusedTcp_state _ hj)) rfl)
          (.of_eq ?_)
        unfold Stack.serving
        rw [flow_requestConnect, flow_setTcp]
        rfl
      · refine serve_act ?_
        rw [flow_requestConnect]
        exact flow_setTcp_same _ j _ fun h => absurd h hi
  | udp =>
    unfold xtcpdConnect uipUdpNew
    dsimp only
    cases hj : unusedUdp { w with lastport := freePort (udpPortUsed w) nU w.lastport } with
    | none => exact serve_act rfl
    | some j =>
      simp only
      refine serve_act ?_
      rw [flow_requestConnect, flow_setUdp]
      exact flow_note _ _ rfl

theorem moves_ackRecvMode (linknum connId : Nat) (cs : List (Nat × Command)) :
    Moves win i (w.serving i d ((linknum, .ackRecvMode connId) :: cs))
      ((xtcpdAckRecvMode w connId).serving i d cs) := by
  unfold xtcpdAckRecvMode
  rcases onState_cases w connId _ with hw | ⟨slot, hw⟩
  · rw [hw]
    exact serve_act rfl
  · rw [hw]
    by_cases hs : slot = .tcp i
    · subst hs
      refine .trans (.act (.mode _ linknum connId _ rfl) rfl) (.of_eq ?_)
      unfold Stack.serving
      rw [Stack.setS, flow_setApp]
      refine Flow.ext rfl rfl rfl ?_ ?_ ?_ rfl rfl rfl rfl
      · exact (if_pos rfl).symm
      · exact (if_pos rfl).symm
      · exact (Function.update_eq_self _ _).symm
    · refine serve_act ?_
      exact flow_setApp_same w slot _ rfl (fun h => absurd h hs) fun h => absurd h hs

theorem flow_setStopped_other {conn : Option (Slot nT nU)} (h : conn ≠ some (.tcp i)) :
    (setStopped w conn).flow i d = w.flow i d := by
  unfold setStopped
  cases conn with
  | none => rfl
  | some slot =>
    cases slot with
    | tcp j => exact flow_setTcp_same w j _ fun hj => absurd (congrArg (some ∘ Slot.tcp) hj) h
    | udp j =>
      rw [flow_setConn]
      exact flow_note w _ rfl

theorem flow_clearStopped_other {conn : Option (Slot nT nU)} (h : conn ≠ some (.tcp i)) :
    (clearStopped w conn).flow i d = w.flow i d := by
  unfold clearStopped
  cases conn with
  | none => rfl
  | some slot =>
    cases slot with
    | tcp j => exact flow_setTcp_same w j _ fun hj => absurd (congrArg (some ∘ Slot.tcp) hj) h
    | udp j =>
      rw [flow_setConn]
      exact flow_note w _ rfl

theorem moves_pause (linknum connId : Nat) (cs : List (Nat × Command)) :
    Moves win i (w.serving i d ((linknum, .pause connId) :: cs))
      ((xtcpdPause w connId).serving i d cs) := by
  unfold xtcpdPause
  rcases onState_cases w connId fun slot => setStopped w (w.app slot).s.uipConn with
    hw | ⟨slot, hw⟩
  · rw [hw]
    exact serve_act rfl
  · rw [hw]
    by_cases hc : (w.app slot).s.uipConn = some (.tcp i)
    · rw [hc]
      refine .trans (.act (.pause _ linknum connId _ rfl) rfl) (.of_eq ?_)
      unfold Stack.serving setStopped
      rw [flow_setTcp]
      rfl
    · exact serve_act (flow_setStopped_other w hc)

theorem flow_ask (slot : Slot nT nU) :
    (w.setS slot fun s => { s with ackRequest := true }).flow i d =
      if slot = .tcp i then { w.flow i d with ackRequest := true } else w.flow i d := by
  split
  next hs =>
    subst hs
    rw [Stack.setS, flow_setApp]
    refine Flow.ext rfl rfl rfl ?_ ?_ ?_ rfl rfl rfl rfl
    · exact if_pos rfl
    · exact if_pos rfl
    · exact Function.update_eq_self _ _
  next hs => exact flow_setApp_same w slot _ rfl (fun h => absurd h hs) fun h => absurd h hs

theorem moves_resume {c : Command} (linknum connId : Nat)
    (hc : c = .unpause connId ∨ c = .ackRecv connId) (cs : List (Nat × Command)) :
    Moves win i (w.serving i d ((linknum, c) :: cs)) ((xtcpdUnpause w connId).serving i d cs) := by
  intro hown
  refine (?_ : Moves win i _ _) hown
  unfold xtcpdUnpause
  rcases onState_cases w connId fun slot => (clearStopped w (w.app slot).s.uipConn).setS slot
    fun s => { s with ackRequest := true } with hw | ⟨slot, hw⟩
  · rw [hw]
    exact serve_act rfl
  · rw [hw]
    rcases hown slot with hn | hs
    · have hn' : (w.app slot).s.uipConn = none := hn
      have hclear : (clearStopped w (w.app slot).s.uipConn).flow i d = w.flow i d := by
        rw [hn']
        rfl
      by_cases hi : slot = .tcp i
      · refine .trans (.act (.stray _ linknum connId c _ hc rfl (hi ▸ hn)) rfl) (.of_eq ?_)
        unfold Stack.serving
        rw [flow_ask, if_pos hi, hclear, hn']
        rfl
      · refine serve_act ?_
        rw [flow_ask, if_neg hi, hclear]
    · have hs' : (w.app slot).s.uipConn = some slot := hs
      by_cases hi : slot = .tcp i
      · subst hi
        refine .trans (.act (.resume _ linknum connId c _ hc rfl hs) rfl) (.of_eq ?_)
        unfold Stack.serving
        rw [flow_ask, if_pos rfl, hs']
        unfold clearStopped
        rw [flow_setTcp]
        rfl
      · refine serve_act ?_
        rw [flow_ask, if_neg hi, hs']
        refine flow_clearStopped_other w fun h => hi ?_
        exact Option.some.inj h

theorem moves_runCommand (cfg : Config) (c : Nat × Command) (cs : List (Nat × Command)) :
    Moves win i (w.serving i d (c :: cs)) ((runCommand cfg w c).serving i d cs) := by
  have hstate {connId : Nat} {f : Slot nT nU → ServerState nT nU → ServerState nT nU}
      (hconn : ∀ slot s, (f slot s).uipConn = s.uipConn)
      (hreq : ∀ slot s, (f slot s).ackRequest = s.ackRequest)
      (hmode : ∀ slot s, (f slot s).ackRecvMode = s.ackRecvMode) :
      Moves win i (w.serving i d (c :: cs))
        ((onState w connId fun slot => w.setS slot (f slot)).serving i d cs) :=
    serve_act (flow_onState w connId _ fun slot =>
      flow_setS_same w slot _ (hconn slot) (hreq slot) (hmode slot))
  obtain ⟨linknum, c⟩ := c
  cases c with
  | listen portNumber p => cases p <;> exact serve_act rfl
  | connect portNumber addr p => exact moves_connect w cfg linknum portNumber addr p cs
  | bindLocal connId portNumber => exact serve_act (flow_bindLocal w connId portNumber)
  | bindRemote connId addr portNumber =>
    exact serve_act (flow_bindRemote w connId addr portNumber)
  | initSend connId =>
    exact hstate (f := fun _ s => { s with sendRequest := s.sendRequest + 1 }) (fun _ _ => rfl)
      (fun _ _ => rfl) fun _ _ => rfl
  | setAppstate connId appstate =>
    exact serve_act (flow_onState w connId _ fun slot => flow_setConn w slot _)
  | close connId =>
    exact hstate (f := fun _ s => { s with closeRequest := true }) (fun _ _ => rfl)
      (fun _ _ => rfl) fun _ _ => rfl
  | abort connId =>
    exact hstate (f := fun _ s => { s with abortRequest := true }) (fun _ _ => rfl)
      (fun _ _ => rfl) fun _ _ => rfl
  | setPollInterval connId pollInterval =>
    refine serve_act (flow_onState w connId _ fun slot => ?_)
    split
    · exact flow_setS_same w slot _ (fun _ => rfl) (fun _ => rfl) fun _ => rfl
    · rfl
  | ackRecv connId => exact moves_resume w linknum connId (Or.inr rfl) cs
  | ackRecvMode connId => exact moves_ackRecvMode w linknum connId cs
  | pause connId => exact moves_pause w linknum connId cs
  | unpause connId => exact moves_resume w linknum connId (Or.inl rfl) cs
  | _ => exact serve_act rfl

theorem moves_runCommands (cfg : Config) (cs : List (Nat × Command)) :
    Moves win i (w.serving i d cs) ((runCommands cfg w cs).flow i d) := by
  induction cs generalizing w with
  | nil => exact .of_eq rfl
  | cons c cs ih => exact (moves_runCommand w cfg c cs).trans (ih (runCommand cfg w c))

theorem moves_untilReady (cfg : Config) (slot : Slot nT nU) (event : XtcpEvent)
    (ready : Option Nat) :
    Moves win i (w.flow i d) ((untilReady cfg slot event ready w).flow i d) := by
  have hwait : w.flow i d = (w.wait slot event ready).serving i d (w.env.waits.headD []) := by
    refine Flow.ext rfl rfl rfl rfl rfl rfl rfl rfl ?_ rfl
    show w.env.waits.flatten = w.env.waits.headD [] ++ w.env.waits.tail.flatten
    cases w.env.waits <;> rfl
  rw [hwait]
  exact moves_runCommands _ cfg _

end Xtcp.Uip

import Xtcp.Uip.Life

namespace Xtcp.Uip
open Channel Listen

variable {nT nU : Nat} (w : Stack nT nU) (p : Option (Fin nT))

theorem state_setTcp (i : Fin nT) (f : TcpConn → TcpConn) :
    (w.setTcp i f).state = Function.update w.state i (f (w.tcp i)).tcpstateflags.state :=
  Function.comp_update (fun c : TcpConn => c.tcpstateflags.state) w.tcp i (f (w.tcp i))

theorem lport_setTcp (i : Fin nT) (f : TcpConn → TcpConn) :
    (w.setTcp i f).lport = Function.update w.lport (.tcp i) (f (w.tcp i)).lport := by
  funext slot
  cases slot with
  | tcp j =>
    by_cases h : j = i
    · subst h
      simp [Stack.setTcp, Stack.lport]
    · simp [Stack.setTcp, Stack.lport, h]
  | udp j => simp [Stack.setTcp, Stack.lport]

theorem lport_setUdp (i : Fin nU) (f : UdpConn → UdpConn) :
    (w.setUdp i f).lport = Function.update w.lport (.udp i) (f (w.udp i)).lport := by
  funext slot
  cases slot with
  | udp j =>
    by_cases h : j = i
    · subst h
      simp [Stack.setUdp, Stack.lport]
    · simp [Stack.setUdp, Stack.lport, h]
  | tcp j => simp [Stack.setUdp, Stack.lport]

theorem life_setTcp (i : Fin nT) (f : TcpConn → TcpConn) :
    (w.setTcp i f).life p = ((w.life p).setState i (f (w.tcp i)).tcpstateflags.state).setLport
      (.tcp i) (f (w.tcp i)).lport := by
  simp only [Stack.life, state_setTcp, lport_setTcp]
  rfl

theorem life_setUdp (i : Fin nU) (f : UdpConn → UdpConn) :
    (w.setUdp i f).life p = (((w.life p).setLport (.udp i) (f (w.udp i)).lport).setSent i
      (f (w.udp i)).udpSent).setPendingArp i (f (w.udp i)).udpPendingArp := by
  have hs := Function.comp_update (fun c : UdpConn => c.udpSent) w.udp i (f (w.udp i))
  have ha := Function.comp_update (fun c : UdpConn => c.udpPendingArp) w.udp i (f (w.udp i))
  simp only [Stack.life, lport_setUdp]
  exact Life.ext rfl rfl hs ha rfl rfl rfl rfl rfl rfl rfl rfl rfl rfl rfl rfl

namespace Life

variable (a : Life nT nU)

@[simp] theorem setState_self (i : Fin nT) : a.setState i (a.state i) = a := by
  simp [setState]

@[simp] theorem setLport_self (slot : Slot nT nU) : a.setLport slot (a.lport slot) = a := by
  simp [setLport]

@[simp] theorem setSent_self (i : Fin nU) : a.setSent i (a.udpSent i) = a := by
  simp [setSent]

@[simp] theorem setPendingArp_self (i : Fin nU) :
    a.setPendingArp i (a.udpPendingArp i) = a := by
  simp [setPendingArp]

@[simp] theorem setRequest_self (slot : Slot nT nU) :
    a.setRequest slot (a.connectRequest slot) = a := by
  simp [setRequest]

@[simp] theorem setType_self (slot : Slot nT nU) :
    a.setType slot (a.connectionType slot) = a := by
  simp [setType]

end Life

theorem life_setTcp_lport (i : Fin nT) (f : TcpConn → TcpConn)
    (hstate : (f (w.tcp i)).tcpstateflags.state = (w.tcp i).tcpstateflags.state) :
    (w.setTcp i f).life p = (w.life p).setLport (.tcp i) (f (w.tcp i)).lport := by
  rw [life_setTcp, hstate]
  exact congrArg (Life.setLport · (.tcp i) _) ((w.life p).setState_self i)

theorem life_setUdp_lport (i : Fin nU) (f : UdpConn → UdpConn)
    (hsent : (f (w.udp i)).udpSent = (w.udp i).udpSent)
    (harp : (f (w.udp i)).udpPendingArp = (w.udp i).udpPendingArp) :
    (w.setUdp i f).life p = (w.life p).setLport (.udp i) (f (w.udp i)).lport := by
  rw [life_setUdp, hsent, harp]
  have hs : ((w.life p).setLport (.udp i) (f (w.udp i)).lport).setSent i (w.udp i).udpSent =
      (w.life p).setLport (.udp i) (f (w.udp i)).lport := Life.setSent_self _ i
  rw [hs]
  exact Life.setPendingArp_self _ i

theorem life_setTcp_same (i : Fin nT) (f : TcpConn → TcpConn)
    (hstate : (f (w.tcp i)).tcpstateflags.state = (w.tcp i).tcpstateflags.state)
    (hlport : (f (w.tcp i)).lport = (w.tcp i).lport) : (w.setTcp i f).life p = w.life p := by
  rw [life_setTcp_lport w p i f hstate, hlport]
  exact (w.life p).setLport_self (.tcp i)

theorem life_setUdp_same (i : Fin nU) (f : UdpConn → UdpConn)
    (hlport : (f (w.udp i)).lport = (w.udp i).lport)
    (hsent : (f (w.udp i)).udpSent = (w.udp i).udpSent)
    (harp : (f (w.udp i)).udpPendingArp = (w.udp i).udpPendingArp) :
    (w.setUdp i f).life p = w.life p := by
  rw [life_setUdp_lport w p i f hsent harp, hlport]
  exact (w.life p).setLport_self (.udp i)

theorem life_setState (i : Fin nT) (st : TcpState) :
    (w.setState i st).life p = (w.life p).setState i st := by
  rw [Stack.setState, life_setTcp]
  exact ((w.life p).setState i st).setLport_self (.tcp i)

theorem life_setUdp_sent (i : Fin nU) (f : UdpConn → UdpConn)
    (hlport : (f (w.udp i)).lport = (w.udp i).lport)
    (harp : (f (w.udp i)).udpPendingArp = (w.udp i).udpPendingArp) :
    (w.setUdp i f).life p = (w.life p).setSent i (f (w.udp i)).udpSent := by
  rw [life_setUdp, hlport, harp]
  have hl : (w.life p).setLport (.udp i) (w.udp i).lport = w.life p := Life.setLport_self _ _
  rw [hl]
  exact Life.setPendingArp_self _ i

theorem life_setUdp_arp (i : Fin nU) (f : UdpConn → UdpConn)
    (hlport : (f (w.udp i)).lport = (w.udp i).lport)
    (hsent : (f (w.udp i)).udpSent = (w.udp i).udpSent) :
    (w.setUdp i f).life p = (w.life p).setPendingArp i (f (w.udp i)).udpPendingArp := by
  rw [life_setUdp, hlport, hsent]
  have hl : (w.life p).setLport (.udp i) (w.udp i).lport = w.life p := Life.setLport_self _ _
  have hs : (w.life p).setSent i (w.udp i).udpSent = w.life p := Life.setSent_self _ i
  rw [hl, hs]

theorem life_setApp (slot : Slot nT nU) (f : Xtcpd nT nU → Xtcpd nT nU) :
    (w.setApp slot f).life p =
      { w.life p with
        linknum := Function.update (w.life p).linknum slot (f (w.app slot)).linknum
        id := Function.update (w.life p).id slot (f (w.app slot)).conn.id
        connectionType := Function.update (w.life p).connectionType slot
          (f (w.app slot)).conn.connectionType
        connectRequest := Function.update (w.life p).connectRequest slot
          (f (w.app slot)).s.connectRequest
        closed := Function.update (w.life p).closed slot (f (w.app slot)).s.closed } := by
  have hu {β : Type} (g : Xtcpd nT nU → β) :
      g ∘ (w.setApp slot f).app = Function.update (g ∘ w.app) slot (g (f (w.app slot))) :=
    Function.comp_update g w.app slot _
  exact Life.ext rfl rfl rfl rfl (hu (·.linknum)) (hu (·.conn.id)) (hu (·.conn.connectionType))
    (hu (·.s.connectRequest)) (hu (·.s.closed)) rfl rfl rfl rfl rfl rfl rfl

theorem life_setConn (slot : Slot nT nU) (f : Conn → Conn)
    (hid : (f (w.app slot).conn).id = (w.app slot).conn.id) :
    (w.setConn slot f).life p =
      (w.life p).setType slot (f (w.app slot).conn).connectionType := by
  rw [Stack.setConn, life_setApp, hid]
  exact Life.ext rfl rfl rfl rfl (Function.update_eq_self _ _) (Function.update_eq_self _ _) rfl
    (Function.update_eq_self _ _) (Function.update_eq_self _ _) rfl rfl rfl rfl rfl rfl rfl

theorem life_setConn_same (slot : Slot nT nU) (f : Conn → Conn)
    (hid : (f (w.app slot).conn).id = (w.app slot).conn.id)
    (htype : (f (w.app slot).conn).connectionType = (w.app slot).conn.connectionType) :
    (w.setConn slot f).life p = w.life p := by
  rw [life_setConn w p slot f hid, htype]
  exact (w.life p).setType_self slot

theorem life_setS (slot : Slot nT nU) (f : ServerState nT nU → ServerState nT nU)
    (hclosed : (f (w.app slot).s).closed = (w.app slot).s.closed) :
    (w.setS slot f).life p = (w.life p).setRequest slot (f (w.app slot).s).connectRequest := by
  rw [Stack.setS, life_setApp, hclosed]
  exact Life.ext rfl rfl rfl rfl (Function.update_eq_self _ _) (Function.update_eq_self _ _)
    (Function.update_eq_self _ _) rfl (Function.update_eq_self _ _) rfl rfl rfl rfl rfl rfl rfl

theorem life_setS_same (slot : Slot nT nU) (f : ServerState nT nU → ServerState nT nU)
    (hrequest : (f (w.app slot).s).connectRequest = (w.app slot).s.connectRequest)
    (hclosed : (f (w.app slot).s).closed = (w.app slot).s.closed) :
    (w.setS slot f).life p = w.life p := by
  rw [life_setS w p slot f hclosed, hrequest]
  exact (w.life p).setRequest_self slot

theorem older_some {tcp : Fin nT → TcpConn} {best : Option (Fin nT)} {j i : Fin nT}
    (h : older tcp best j = some i) : best = some i ∨ (tcp i).isTimeWait = true := by
  unfold older at h
  split at h
  next hj =>
    split at h
    · cases h
      exact Or.inr hj
    · split at h
      · cases h
        exact Or.inr hj
      · exact Or.inl h
  next => exact Or.inl h

theorem foldl_older_some {tcp : Fin nT → TcpConn} {best : Option (Fin nT)} {is : List (Fin nT)}
    {i : Fin nT} (h : is.foldl (older tcp) best = some i) :
    best = some i ∨ (tcp i).isTimeWait = true := by
  induction is generalizing best with
  | nil => exact Or.inl h
  | cons j is ih =>
    rcases ih h with hb | ht
    · exact older_some hb
    · exact Or.inr ht

theorem unusedTcp_free {i : Fin nT} (h : unusedTcp w = some i) : (w.life p).free (.tcp i) := by
  unfold unusedTcp at h
  split at h
  next j hj =>
    cases h
    have hi := List.find?_some hj
    exact Or.inl (congrArg TcpFlags.state (eq_of_beq hi))
  next =>
    rcases foldl_older_some h with hb | ht
    · cases hb
    · exact Or.inr (congrArg TcpFlags.state (eq_of_beq ht))

theorem unusedUdp_free {i : Fin nU} (h : unusedUdp w = some i) : (w.life p).free (.udp i) :=
  eq_of_beq (List.find?_some h :)

theorem life_open (slot : Slot nT nU) (origin : Origin) :
    (w.open slot origin).life p = (w.life p).openAs slot origin := rfl

theorem life_requestConnect (slot : Slot nT nU) (linknum : Nat) :
    (requestConnect w slot linknum).life p = (w.life p).connect slot linknum := by
  rw [requestConnect, life_setApp, life_open]
  exact Life.ext rfl rfl rfl rfl rfl (Function.update_eq_self _ _) rfl rfl
    (Function.update_eq_self _ _) rfl rfl rfl rfl rfl rfl rfl

-- The slot a command is given by uip_connect or uip_udp_new.
def allocated (w : Stack nT nU) : Command → Option (Slot nT nU)
  | .connect _ _ .tcp => (unusedTcp w).map .tcp
  | .connect _ _ .udp => (unusedUdp w).map .udp
  | _ => none

theorem uipConnect_cases (cfg : Config) (addr : Ipaddr) (rport : Nat) :
    ((uipConnect cfg w addr rport).1 = none ∧ unusedTcp w = none ∧
      (uipConnect cfg w addr rport).2.life p = w.life p) ∨
    ∃ i port, (uipConnect cfg w addr rport).1 = some i ∧ unusedTcp w = some i ∧
      (uipConnect cfg w addr rport).2.life p =
        ((w.life p).setState i .synSent).setLport (.tcp i) port := by
  unfold uipConnect
  dsimp only
  cases hi : unusedTcp { w with lastport := freePort (tcpPortUsed w) nT w.lastport } with
  | none => exact Or.inl ⟨rfl, hi, rfl⟩
  | some i =>
    refine Or.inr ⟨i, htons (freePort (tcpPortUsed w) nT w.lastport), rfl, hi, ?_⟩
    simp only [life_setTcp]
    rfl

theorem uipUdpNew_cases (addr : Ipaddr) (rport : Nat) :
    ((uipUdpNew w addr rport).1 = none ∧ unusedUdp w = none ∧
      (uipUdpNew w addr rport).2.life p = w.life p) ∨
    ∃ i port, (uipUdpNew w addr rport).1 = some i ∧ unusedUdp w = some i ∧
      (uipUdpNew w addr rport).2.life p = (w.life p).clear i port := by
  unfold uipUdpNew
  dsimp only
  cases hi : unusedUdp { w with lastport := freePort (udpPortUsed w) nU w.lastport } with
  | none => exact Or.inl ⟨rfl, hi, rfl⟩
  | some i =>
    refine Or.inr ⟨i, htons (freePort (udpPortUsed w) nU w.lastport), rfl, hi, ?_⟩
    simp only [life_setUdp]
    rfl

theorem connect_cases (cfg : Config) (linknum portNumber : Nat) (addr : Ipaddr)
    (protocol : Protocol) :
    (allocated w (.connect portNumber addr protocol) = none ∧
      (xtcpdConnect cfg w linknum portNumber addr protocol).life p = w.life p) ∨
    ∃ slot b, allocated w (.connect portNumber addr protocol) = some slot ∧
      Life.Prepared (w.life p) slot b ∧
      (w.life p).Command (b.connect slot linknum) ∧
      (xtcpdConnect cfg w linknum portNumber addr protocol).life p = b.connect slot linknum := by
  cases protocol with
  | tcp =>
    have hc := uipConnect_cases w p cfg addr (htons portNumber)
    unfold xtcpdConnect allocated
    generalize uipConnect cfg w addr (htons portNumber) = r at hc ⊢
    obtain ⟨o, w'⟩ := r
    rcases hc with ⟨rfl, hi, hw⟩ | ⟨i, port, rfl, hi, hw⟩
    · exact Or.inl ⟨by rw [hi]; rfl, hw⟩
    · refine Or.inr ⟨.tcp i, _, by rw [hi]; rfl, .tcp port, ?_, ?_⟩
      · exact .connectTcp (w.life p) i port linknum (unusedTcp_free w p hi)
      · simp only [life_requestConnect, hw]
  | udp =>
    have hc := uipUdpNew_cases w p addr (htons portNumber)
    unfold xtcpdConnect allocated
    generalize uipUdpNew w addr (htons portNumber) = r at hc ⊢
    obtain ⟨o, w'⟩ := r
    rcases hc with ⟨rfl, hi, hw⟩ | ⟨i, port, rfl, hi, hw⟩
    · exact Or.inl ⟨by rw [hi]; rfl, hw⟩
    · refine Or.inr ⟨.udp i, _, by rw [hi]; rfl, .udp port, ?_, ?_⟩
      · exact .connectUdp (w.life p) i port linknum (unusedUdp_free w p hi)
      · simp only [life_requestConnect, hw]

theorem adjusts_bindLocal (connId portNumber : Nat) :
    (w.life p).Adjusts ((xtcpdBindLocal w connId portNumber).life p) := by
  unfold xtcpdBindLocal
  cases lookupXtcpdState w connId with
  | none => exact .refl
  | some slot =>
    have hw : (w.setConn slot fun c => { c with localPort := portNumber }).life p = w.life p :=
      life_setConn_same w p slot _ rfl rfl
    simp only
    generalize (w.setConn slot fun c => { c with localPort := portNumber }) = w' at hw ⊢
    rw [← hw]
    split
    · exact .refl
    next i _ =>
      rw [life_setTcp_lport _ p i _ rfl]
      exact .single (.bind (w'.life p) (.tcp i) (htons portNumber))
    next i _ =>
      rw [life_setUdp_lport _ p i _ rfl rfl]
      exact .single (.bind (w'.life p) (.udp i) (htons portNumber))

theorem life_bindRemote (connId : Nat) (addr : Ipaddr) (portNumber : Nat) :
    (xtcpdBindRemote w connId addr portNumber).life p = w.life p := by
  unfold xtcpdBindRemote
  cases lookupXtcpdState w connId with
  | none => rfl
  | some slot =>
    simp only
    split
    · have hw : (w.setConn slot fun c =>
          { c with remotePort := portNumber, remoteAddr := ipaddrWord addr }).life p = w.life p :=
        life_setConn_same w p slot _ rfl rfl
      generalize (w.setConn slot fun c =>
        { c with remotePort := portNumber, remoteAddr := ipaddrWord addr }) = w' at hw ⊢
      rw [← hw]
      split
      · exact life_setUdp_same w' p _ _ rfl rfl rfl
      · exact life_setTcp_same w' p _ _ rfl rfl
      · rfl
    · rfl

theorem adjusts_onState (connId : Nat) (f : Slot nT nU → Stack nT nU)
    (hf : ∀ slot, (w.life p).Adjusts ((f slot).life p)) :
    (w.life p).Adjusts ((onState w connId f).life p) := by
  unfold onState
  cases lookupXtcpdState w connId with
  | none => exact .refl
  | some slot => exact hf slot

theorem adjusts_same {w' : Stack nT nU} (h : w'.life p = w.life p) :
    (w.life p).Adjusts (w'.life p) := h ▸ .refl

theorem adjusts_setStopped (conn : Option (Slot nT nU)) :
    (w.life p).Adjusts ((setStopped w conn).life p) := by
  unfold setStopped
  rcases conn with _ | i | i
  · exact .refl
  · exact adjusts_same w p (life_setTcp_same w p i _ rfl rfl)
  · rw [life_setConn _ p _ _ rfl]
    exact .single (.pause (w.life p) (.udp i) _)

theorem adjusts_clearStopped (conn : Option (Slot nT nU)) :
    (w.life p).Adjusts ((clearStopped w conn).life p) := by
  unfold clearStopped
  rcases conn with _ | i | i
  · exact .refl
  · exact adjusts_same w p (life_setTcp_same w p i _ rfl rfl)
  · rw [life_setConn _ p _ _ rfl]
    exact .single (.pause (w.life p) (.udp i) _)

theorem adjusts_unpause (connId : Nat) :
    (w.life p).Adjusts ((xtcpdUnpause w connId).life p) := by
  refine adjusts_onState w p connId _ fun slot => ?_
  rw [life_setS_same _ p slot _ rfl rfl]
  exact adjusts_clearStopped w p _

theorem adjusts_runCommand (cfg : Config) (linknum : Nat) (c : Command)
    (h : ∀ portNumber addr protocol, c ≠ .connect portNumber addr protocol) :
    (w.life p).Adjusts ((runCommand cfg w (linknum, c)).life p) := by
  cases c with
  | listen portNumber protocol =>
    cases protocol with
    | tcp => exact .single (.tables _ _)
    | udp => exact .single (.tables _ _)
  | unlisten portNumber => exact .single (.tables _ _)
  | connect portNumber addr protocol => exact absurd rfl (h portNumber addr protocol)
  | bindLocal connId portNumber => exact adjusts_bindLocal w p connId portNumber
  | bindRemote connId addr portNumber =>
    exact adjusts_same w p (life_bindRemote w p connId addr portNumber)
  | initSend connId =>
    exact adjusts_onState w p connId _ fun slot =>
      adjusts_same w p (life_setS_same w p slot _ rfl rfl)
  | setAppstate connId appstate =>
    exact adjusts_onState w p connId _ fun slot =>
      adjusts_same w p (life_setConn_same w p slot _ rfl rfl)
  | setPollInterval connId pollInterval =>
    refine adjusts_onState w p connId _ fun slot => ?_
    split
    · exact adjusts_same w p (life_setS_same w p slot _ rfl rfl)
    · exact .refl
  | close connId =>
    exact adjusts_onState w p connId _ fun slot =>
      adjusts_same w p (life_setS_same w p slot _ rfl rfl)
  | abort connId =>
    exact adjusts_onState w p connId _ fun slot =>
      adjusts_same w p (life_setS_same w p slot _ rfl rfl)
  | ackRecvMode connId =>
    exact adjusts_onState w p connId _ fun slot =>
      adjusts_same w p (life_setS_same w p slot _ rfl rfl)
  | pause connId => exact adjusts_onState w p connId _ fun slot => adjusts_setStopped w p _
  | unpause connId => exact adjusts_unpause w p connId
  | ackRecv connId => exact adjusts_unpause w p connId
  | _ => exact .refl

theorem commands_runCommand (cfg : Config) (c : Nat × Command) :
    (w.life p).Commands ((runCommand cfg w c).life p) := by
  obtain ⟨linknum, c⟩ := c
  by_cases h : ∃ portNumber addr protocol, c = .connect portNumber addr protocol
  · obtain ⟨portNumber, addr, protocol, rfl⟩ := h
    rcases connect_cases w p cfg linknum portNumber addr protocol with
      ⟨_, hw⟩ | ⟨slot, b, _, _, hcommand, hw⟩
    · exact hw ▸ .refl
    · exact hw ▸ .single hcommand
  · push Not at h
    exact Life.commands_adjusts (adjusts_runCommand w p cfg linknum c h)

theorem commands_runCommands (cfg : Config) (cs : List (Nat × Command)) :
    (w.life p).Commands ((runCommands cfg w cs).life p) := by
  induction cs generalizing w with
  | nil => exact .refl
  | cons c cs ih => exact (commands_runCommand w p cfg c).trans (ih (runCommand cfg w c))

end Xtcp.Uip

import Xtcp.Uip.Serve

namespace Xtcp.Uip
open Channel Listen

variable {nT nU : Nat} {w w' : Stack nT nU} {p : Option (Fin nT)} {slot : Slot nT nU}

structure Delivered (slot : Slot nT nU) (p : Option (Fin nT)) (a : Life nT nU)
    (w w' : Stack nT nU) : Prop where
  acts : a.Acts (w'.life p)
  kept : Life.Kept slot (w.life p) (w'.life p)
  slen : 0 < w'.uipSlen → 0 < w.uipSlen ∨ (w'.app slot).linknum ≠ none

theorem Delivered.refl : Delivered slot p (w.life p) w w := ⟨.refl, .refl, Or.inl⟩

theorem Delivered.trans {a : Life nT nU} {w'' : Stack nT nU} (h : Delivered slot p a w w')
    (h' : Delivered slot p (w'.life p) w' w'') : Delivered slot p a w w'' where
  acts := h.acts.trans h'.acts
  kept := h.kept.trans h'.kept
  slen hs := by
    rcases h'.slen hs with hs' | hl
    · exact (h.slen hs').imp_right h'.kept.linked
    · exact Or.inr hl

theorem Delivered.same {a : Life nT nU} {w'' : Stack nT nU} (h : Delivered slot p a w w')
    (hlife : w''.life p = w'.life p)
    (hslen : w''.uipSlen ≤ w'.uipSlen ∨ (w''.app slot).linknum ≠ none) :
    Delivered slot p a w w'' where
  acts := hlife ▸ h.acts
  kept := hlife ▸ h.kept
  slen hs := by
    rcases hslen with hle | hl
    · have hl : (w''.app slot).linknum = (w'.app slot).linknum :=
        congrFun (congrArg Life.linknum hlife) slot
      rw [hl]
      exact h.slen (by omega)
    · exact Or.inr hl

def Stack.regs (w : Stack nT nU) : Flags × Nat := (w.uipFlags, w.uipSlen)

theorem regs_connect (cfg : Config) (w : Stack nT nU) (linknum portNumber : Nat)
    (addr : Ipaddr) (protocol : Protocol) :
    (xtcpdConnect cfg w linknum portNumber addr protocol).regs = w.regs := by
  cases protocol with
  | tcp =>
    unfold xtcpdConnect uipConnect
    dsimp only
    cases unusedTcp { w with lastport := freePort (tcpPortUsed w) nT w.lastport } <;> rfl
  | udp =>
    unfold xtcpdConnect uipUdpNew
    dsimp only
    cases unusedUdp { w with lastport := freePort (udpPortUsed w) nU w.lastport } <;> rfl

theorem regs_onState (w : Stack nT nU) (connId : Nat) (f : Slot nT nU → Stack nT nU)
    (hf : ∀ slot, (f slot).regs = w.regs) : (onState w connId f).regs = w.regs := by
  unfold onState
  split
  · rfl
  · exact hf _

theorem regs_setStopped (w : Stack nT nU) (conn : Option (Slot nT nU)) :
    (setStopped w conn).regs = w.regs := by
  unfold setStopped
  split <;> rfl

theorem regs_unpause (w : Stack nT nU) (connId : Nat) : (xtcpdUnpause w connId).regs = w.regs := by
  refine regs_onState w connId _ fun slot => ?_
  unfold clearStopped
  split <;> rfl

theorem regs_runCommand (cfg : Config) (w : Stack nT nU) (c : Nat × Command) :
    (runCommand cfg w c).regs = w.regs := by
  obtain ⟨linknum, c⟩ := c
  cases c with
  | listen portNumber protocol => cases protocol <;> rfl
  | connect portNumber addr protocol => exact regs_connect cfg w linknum portNumber addr protocol
  | bindLocal connId portNumber =>
    simp only [runCommand, xtcpdBindLocal]
    split
    · rfl
    · split <;> rfl
  | bindRemote connId addr portNumber =>
    simp only [runCommand, xtcpdBindRemote]
    split
    · rfl
    · split
      · split <;> rfl
      · rfl
  | setPollInterval connId pollInterval =>
    refine regs_onState w connId _ fun slot => ?_
    split <;> rfl
  | initSend connId => exact regs_onState w connId _ fun _ => rfl
  | setAppstate connId appstate => exact regs_onState w connId _ fun _ => rfl
  | close connId => exact regs_onState w connId _ fun _ => rfl
  | abort connId => exact regs_onState w connId _ fun _ => rfl
  | ackRecvMode connId => exact regs_onState w connId _ fun _ => rfl
  | pause connId => exact regs_onState w connId _ fun _ => regs_setStopped w _
  | unpause connId => exact regs_unpause w connId
  | ackRecv connId => exact regs_unpause w connId
  | _ => rfl

theorem regs_runCommands (cfg : Config) (w : Stack nT nU) (cs : List (Nat × Command)) :
    (runCommands cfg w cs).regs = w.regs := by
  induction cs generalizing w with
  | nil => rfl
  | cons c cs ih => exact (ih (runCommand cfg w c)).trans (regs_runCommand cfg w c)

theorem regs_untilReady (slot : Slot nT nU) (cfg : Config) (event : XtcpEvent) (ready : Option Nat)
    (w : Stack nT nU) : (untilReady cfg slot event ready w).regs = w.regs :=
  regs_runCommands cfg _ _

theorem commands_untilReady (slot : Slot nT nU) (cfg : Config) (event : XtcpEvent)
    (ready : Option Nat)
    (w : Stack nT nU) :
    ((w.life p).raise slot event ready).Commands ((untilReady cfg slot event ready w).life p) :=
  commands_runCommands (w.wait slot event ready) p cfg (w.env.waits.headD [])

theorem life_sendEvent (slot : Slot nT nU) (cfg : Config) (event : XtcpEvent)
    (ready link : Option Nat)
    (w : Stack nT nU) :
    ∃ conn : Conn, conn.id = (w.life p).id slot ∧
      conn.connectionType = (w.life p).connectionType slot ∧
      (xtcpdSendEvent cfg slot event ready link w).life p =
        (w.life p).send ⟨slot, event, ready⟩ link conn := by
  have hlife := life_setConn_same w p slot
    (fun c => { c with event := event.code cfg.pushNotification }) rfl rfl
  unfold xtcpdSendEvent
  generalize (w.setConn slot fun c =>
    { c with event := event.code cfg.pushNotification }) = w' at hlife ⊢
  rw [← hlife]
  exact ⟨(w'.app slot).conn, rfl, rfl, rfl⟩

theorem kept_untilReady (slot : Slot nT nU) (cfg : Config) (event : XtcpEvent) (ready : Option Nat)
    (w : Stack nT nU) :
    Life.Kept slot (w.life p) ((untilReady cfg slot event ready w).life p) :=
  (Life.kept_raise event ready slot).trans
    (Life.kept_commands _ (commands_untilReady _ cfg event ready w))

theorem slen_untilReady (slot : Slot nT nU) (cfg : Config) (event : XtcpEvent) (ready : Option Nat)
    (w : Stack nT nU) : (untilReady cfg slot event ready w).uipSlen = w.uipSlen :=
  congrArg Prod.snd (regs_untilReady _ cfg event ready w)

-- One event of the slot, with nothing to send after it but what came from a client.
structure Sends (slot : Slot nT nU) (p : Option (Fin nT)) (event : XtcpEvent)
    (w w' : Stack nT nU) : Prop where
  delivers : (w.life p).Delivers slot event (w'.life p)
  slen : 0 < w'.uipSlen → 0 < w.uipSlen ∨ (w'.app slot).linknum ≠ none

theorem Sends.delivered {a : Life nT nU} {event : XtcpEvent} (h : Sends slot p event w w')
    (hact : a.Act (w'.life p)) : Delivered slot p a w w' where
  acts := .single hact
  kept := Life.kept_delivers _ h.delivers
  slen := h.slen

theorem sends_event (slot : Slot nT nU) (cfg : Config) (event : XtcpEvent) (w : Stack nT nU) :
    Sends slot p event w (xtcpdEvent cfg event slot w) := by
  unfold xtcpdEvent
  cases hl : (w.app slot).linknum with
  | none => exact ⟨.skip hl, Or.inl⟩
  | some ready =>
    have hc := commands_untilReady (p := p) slot cfg event (some ready) w
    have hslen := slen_untilReady slot cfg event (some ready) w
    dsimp only
    generalize untilReady cfg slot event (some ready) w = w₁ at hc hslen ⊢
    obtain ⟨conn, hid, htype, hlife⟩ := life_sendEvent (p := p) slot cfg event
      (some ready) (w₁.app slot).linknum w₁
    refine ⟨?_, fun h => Or.inl (hslen ▸ h)⟩
    rw [hlife]
    exact .send ready (w₁.life p) _ conn (Or.inl hl) hc (Or.inr rfl) hid htype

theorem life_send (slot : Slot nT nU) (cfg : Config) (event : XtcpEvent) (ready link : Option Nat)
    (mss : Nat)
    (w : Stack nT nU) :
    ∃ conn : Conn, conn.id = (w.life p).id slot ∧
      conn.connectionType = (w.life p).connectionType slot ∧
      (xtcpdSend cfg slot event ready link mss w).2.life p =
        (w.life p).send ⟨slot, event, ready⟩ link conn := by
  have hmss := life_setConn_same w p slot (fun c => { c with mss := mss }) rfl rfl
  rw [← hmss]
  exact life_sendEvent _ cfg event ready link (w.setConn slot fun c => { c with mss := mss })

theorem sends_doSend (cfg : Config) (event : XtcpEvent) {link : Nat} (mss : Nat)
    (hl : (w.app slot).linknum = some link) :
    Sends slot p event w (doXtcpdSend cfg slot event link mss w).2 := by
  have hc := commands_untilReady (p := p) slot cfg event (some link) w
  have hslen := slen_untilReady slot cfg event (some link) w
  unfold doXtcpdSend
  generalize untilReady cfg slot event (some link) w = w₁ at hc hslen ⊢
  obtain ⟨conn, hid, htype, hlife⟩ := life_send (p := p) slot cfg event (some link)
    (some link) mss w₁
  refine ⟨?_, fun h => Or.inl (hslen ▸ h)⟩
  rw [hlife]
  exact .send link (w₁.life p) _ conn (Or.inl hl) hc (Or.inl rfl) hid htype

theorem delivered_data (cfg : Config) {event : XtcpEvent} (ho : (w.life p).IsOpen slot)
    (hevent : isData slot event = true) :
    Delivered slot p (w.life p) w (xtcpdEvent cfg event slot w) :=
  have h := sends_event _ cfg event w
  h.delivered (.data _ _ slot event ho hevent h.delivers)

-- The state in the middle of a round: a holds before its wait, w after it.
theorem acts_recvRounds (cfg : Config) {a : Life nT nU} {ready link : Nat} (answers : List Bool)
    (ho : a.IsOpen slot) (hready : a.linknum slot = some ready ∨ a.Reopened)
    (hserved : (a.raise slot .recvData (some ready)).Commands (w.life p))
    (hlink : some link = some ready ∨ some link = (w.app slot).linknum)
    (hsame : (w.app slot).linknum = some link ∨ (w.life p).Reopened) :
    a.Acts ((recvRounds cfg slot (some link) (some ready) answers w).life p) ∧
      Life.Kept slot a ((recvRounds cfg slot (some link) (some ready) answers w).life p) := by
  induction answers generalizing a w ready with
  | nil =>
    obtain ⟨conn, hid, htype, hlife⟩ := life_sendEvent (p := p) slot cfg .recvData
      (some ready) (some link) w
    have hd := Life.Delivers.send ready (w.life p) _ conn
        (hready.imp_right (And.intro rfl)) hserved hlink hid htype
    rw [← hlife] at hd
    exact ⟨.single (.data _ _ slot .recvData ho (isData_recv slot) hd), Life.kept_delivers _ hd⟩
  | cons answer answers ih =>
    obtain ⟨conn, hid, htype, hlife⟩ := life_sendEvent (p := p) slot cfg .recvData
      (some ready) (some link) w
    have hd : a.Delivers slot .recvData ((xtcpdSendEvent cfg slot .recvData (some ready)
        (some link) w).life p) := by
      rw [hlife]
      exact .send ready (w.life p) _ conn (hready.imp_right (And.intro rfl)) hserved hlink hid htype
    have hact : a.Act ((xtcpdSendEvent cfg slot .recvData (some ready) (some link) w).life p) :=
      .data _ _ slot .recvData ho (isData_recv slot) hd
    have hkept := Life.kept_delivers slot hd
    cases answer with
    | true => exact ⟨.single hact, hkept⟩
    | false =>
      have hl : ((xtcpdSendEvent cfg slot .recvData (some ready) (some link) w).app slot).linknum =
          (w.app slot).linknum := congrFun (congrArg Life.linknum hlife) slot
      have hre : (w.life p).Reopened → ((xtcpdSendEvent cfg slot .recvData (some ready)
          (some link) w).life p).Reopened := by
        rw [hlife]
        exact (Life.kept_send slot _ _ conn).reopened
      simp only [recvRounds]
      generalize xtcpdSendEvent cfg slot .recvData (some ready) (some link) w = w₁
        at hact hkept hl hre ⊢
      have hsame₁ : (w₁.app slot).linknum = some link ∨ (w₁.life p).Reopened :=
        hsame.imp (fun h => hl.trans h) hre
      have hserved₁ := commands_untilReady (p := p) slot cfg .recvData (some link) w₁
      have hsame₂ := (Life.linknum_commands rfl hserved₁).2
      have hkept₁ := kept_untilReady (p := p) slot cfg .recvData (some link) w₁
      obtain ⟨hacts, hk⟩ := ih (hkept.isOpen ho) hsame₁ hserved₁ (Or.inl rfl) (by
        rcases hsame₂ with h | h
        · exact hsame₁.imp (fun h₁ => h.trans h₁) hkept₁.reopened
        · exact Or.inr h)
      exact ⟨.head hact hacts, hkept.trans hk⟩

theorem regs_recvRounds (slot : Slot nT nU) (cfg : Config) (link ready : Option Nat)
    (answers : List Bool)
    (w : Stack nT nU) : (recvRounds cfg slot link ready answers w).regs = w.regs := by
  induction answers generalizing w ready with
  | nil => rfl
  | cons answer answers ih =>
    cases answer with
    | true => rfl
    | false => exact (ih link _).trans (regs_untilReady _ cfg .recvData link _)

theorem delivered_recv (cfg : Config) {ready : Nat} (hl : (w.app slot).linknum = some ready)
    (ho : (w.life p).IsOpen slot) :
    Delivered slot p (w.life p) w (xtcpdRecv cfg slot ready w) := by
  have hserved := commands_untilReady (p := p) slot cfg .recvData (some ready) w
  have hkept := kept_untilReady (p := p) slot cfg .recvData (some ready) w
  have hregs := regs_untilReady slot cfg .recvData (some ready) w
  unfold xtcpdRecv
  dsimp only
  generalize untilReady cfg slot .recvData (some ready) w = w₁ at hserved hkept hregs ⊢
  have hlink : (w₁.app slot).linknum ≠ none := hkept.linked (by simp [Stack.life, hl])
  obtain ⟨link, hlink⟩ := Option.ne_none_iff_exists'.mp hlink
  rw [hlink]
  obtain ⟨hacts, hk⟩ := acts_recvRounds cfg w₁.env.ready ho (Or.inl hl) hserved
    (Or.inr hlink.symm) (Or.inl hlink)
  have hslen : (recvRounds cfg slot (some link) (some ready) w₁.env.ready w₁).uipSlen =
      w.uipSlen := congrArg Prod.snd ((regs_recvRounds slot cfg (some link) (some ready) w₁.env.ready
    w₁).trans hregs)
  exact ⟨hacts, hk, fun h => Or.inl (hslen ▸ h)⟩

theorem life_uipStop (w : Stack nT nU) : (uipStop slot w).life p = w.life p := by
  unfold uipStop
  split
  · exact life_setTcp_same w p _ _ rfl rfl
  · rfl

theorem regs_uipStop (w : Stack nT nU) : (uipStop slot w).regs = w.regs := by
  unfold uipStop
  split <;> rfl

theorem delivered_newdata (cfg : Config) (ho : (w.life p).IsOpen slot) :
    Delivered slot p (w.life p) w (onNewdata cfg slot w) := by
  unfold onNewdata
  cases hl : (w.app slot).linknum with
  | none => exact .refl
  | some ready =>
    have hd := delivered_recv (p := p) cfg hl ho
    dsimp only
    split
    · exact hd.same (life_uipStop _) (Or.inl (congrArg Prod.snd (regs_uipStop _)).le)
    · exact hd

theorem life_uipSend (len : Nat) (w : Stack nT nU) :
    (uipSend len w).life p = w.life p ∧ (uipSend len w).app = w.app := by
  unfold uipSend
  split <;> exact ⟨rfl, rfl⟩

theorem linked_delivers {a b : Life nT nU} {event : XtcpEvent} {link : Nat}
    (h : a.Delivers slot event b) (hl : a.linknum slot = some link) : b.linknum slot ≠ none :=
  (Life.kept_delivers _ h).linked (by simp [hl])

theorem sends_uipSend {event : XtcpEvent} {link : Nat} (h : Sends slot p event w w')
    (hl : (w.app slot).linknum = some link) (len : Nat) :
    Sends slot p event w (uipSend len w') := by
  obtain ⟨hlife, happ⟩ := life_uipSend (p := p) len w'
  have hlinked : (w'.app slot).linknum ≠ none := linked_delivers h.delivers hl
  exact ⟨hlife ▸ h.delivers, fun _ => Or.inr (happ ▸ hlinked)⟩

theorem sends_acked (slot : Slot nT nU) (cfg : Config) (w : Stack nT nU)
    (hflag : w.uipFlags.ackdata = true) :
    Sends slot p .sentData w (onAcked cfg slot w) := by
  unfold onAcked
  rw [if_pos hflag]
  cases hl : (w.app slot).linknum with
  | none => exact ⟨.skip hl, Or.inl⟩
  | some link => exact sends_uipSend (sends_doSend cfg .sentData (sendMss cfg w slot) hl) hl _

theorem sends_rexmit (slot : Slot nT nU) (cfg : Config) (w : Stack nT nU)
    (hflag : w.uipFlags.rexmit = true) :
    Sends slot p .resendData w (onRexmit cfg slot w) := by
  unfold onRexmit
  rw [if_pos hflag]
  cases hl : (w.app slot).linknum with
  | none => exact ⟨.skip hl, Or.inl⟩
  | some ready =>
    have hc := commands_untilReady (p := p) slot cfg .resendData (some ready) w
    have hslen := slen_untilReady slot cfg .resendData (some ready) w
    dsimp only
    generalize untilReady cfg slot .resendData (some ready) w = w₁ at hc hslen ⊢
    obtain ⟨conn, hid, htype, hlife⟩ := life_send (p := p) slot cfg .resendData
      (some ready) (w₁.app slot).linknum (sendMss cfg w₁ slot) w₁
    have hs : Sends slot p .resendData w (xtcpdSend cfg slot .resendData (some ready)
        (w₁.app slot).linknum (sendMss cfg w₁ slot) w₁).2 := by
      refine ⟨?_, fun h => Or.inl (hslen ▸ h)⟩
      rw [hlife]
      exact .send ready (w₁.life p) _ conn (Or.inl hl) hc (Or.inr rfl) hid htype
    exact sends_uipSend hs hl _

theorem delivered_acked (cfg : Config) (ho : (w.life p).IsOpen slot)
    (hevent : isData slot .sentData = true) :
    Delivered slot p (w.life p) w (onAcked cfg slot w) := by
  by_cases h : w.uipFlags.ackdata = true
  · have hs := sends_acked (p := p) slot cfg w h
    exact hs.delivered (.data _ _ slot .sentData ho hevent hs.delivers)
  · rw [onAcked, if_neg h]
    exact .refl

theorem delivered_rexmit (cfg : Config) (ho : (w.life p).IsOpen slot)
    (hevent : isData slot .resendData = true) :
    Delivered slot p (w.life p) w (onRexmit cfg slot w) := by
  by_cases h : w.uipFlags.rexmit = true
  · have hs := sends_rexmit (p := p) slot cfg w h
    exact hs.delivered (.data _ _ slot .resendData ho hevent hs.delivers)
  · rw [onRexmit, if_neg h]
    exact .refl

end Xtcp.Uip

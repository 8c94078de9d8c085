import Xtcp.Uip.TcpRefine

namespace Xtcp.Uip
open Channel Listen

variable {nT nU : Nat} {w : Stack nT nU}

theorem acts_uipArpOut {a : Life nT nU} {i : Fin nU} {w : Stack nT nU}
    (hacts : a.Acts (w.life none))
    (h : (w.app (.udp i)).linknum ≠ none ∨ dhcpcPort (w.udp i).lport = true) :
    a.Acts ((uipArpOut i w).life none) := by
  unfold uipArpOut
  dsimp only
  split
  · rw [life_setUdp_sent _ none i _ rfl rfl]
    exact hacts.tail (.transmit (w.life none) i h)
  · rw [life_setUdp_arp _ none i _ rfl rfl]
    exact hacts.tail (.replace (w.life none) i h)

theorem acts_flush {a : Life nT nU} {i : Fin nU} (h : Called i a w) :
    a.Acts ((flush (udpSend i w)).life none) := by
  unfold udpSend
  split
  · exact h.acts
  next hslen => exact acts_uipArpOut h.acts (h.slen (Nat.pos_of_ne_zero hslen))

theorem acts_udpInput (hconns : nT + nU ≤ maxGuid) (cfg : Config) (d : Datagram)
    (w : Stack nT nU) : (w.life none).Acts ((flush (udpInput cfg d w)).life none) := by
  have hlife : ({ w with uipLen := d.len, srcport := d.srcport, srcipaddr := d.srcipaddr } :
      Stack nT nU).life none = w.life none := rfl
  unfold udpInput
  rw [← hlife]
  generalize ({ w with uipLen := d.len, srcport := d.srcport, srcipaddr := d.srcipaddr } :
    Stack nT nU) = w₁
  dsimp only
  split
  next i hi =>
    have hmatch := List.find?_some hi
    have hl : (w₁.udp i).lport ≠ 0 := by
      simp only [Datagram.matches, Bool.and_eq_true, bne_iff_ne] at hmatch
      exact hmatch.1.1.1
    exact acts_flush (called_newdata (w := { withFlags { Flags.none with newdata := true } w₁ with
      uipSlen := 0 }) cfg hl rfl rfl)
  · split
    · cases hi : unusedUdp w₁ with
      | none => exact .refl
      | some i =>
        have hopen : (((w₁.clear i).open (.udp i) (.passive d.destport)).setUdp i fun _ =>
            ⟨d.srcipaddr, d.destport, d.srcport, false, false⟩).life none =
            ((w₁.life none).clear i d.destport).openAs (.udp i) (.passive d.destport) :=
          life_setUdp _ none i _
        exact acts_flush (called_accept (w := { withFlags
          { Flags.none with connected := true, newdata := true }
          (((w₁.clear i).open (.udp i) (.passive d.destport)).setUdp i fun _ =>
            ⟨d.srcipaddr, d.destport, d.srcport, false, false⟩) with uipSlen := 0 })
          hconns cfg (unusedUdp_free w₁ none hi) hopen rfl rfl)
    · exact .refl

theorem acts_udpPeriodic (hconns : nT + nU ≤ maxGuid) (cfg : Config) (i : Fin nU)
    (w : Stack nT nU) : (w.life none).Acts ((flush (udpPeriodic cfg i w)).life none) := by
  unfold udpPeriodic udpCall
  split
  next hl =>
    exact acts_flush (called_poll (w := { withFlags { Flags.none with poll := true } w with
      uipLen := 0, uipSlen := 0 }) hconns cfg hl rfl rfl)
  · exact .refl

theorem Called.from {a b : Life nT nU} {i : Fin nU} (h : Called i b w) (hab : a.Acts b) :
    Called i a w := ⟨hab.trans h.acts, h.slen⟩

theorem isDhcpc_setUdp (w : Stack nT nU) (i : Fin nU) (f : UdpConn → UdpConn)
    (hlport : (f (w.udp i)).lport = (w.udp i).lport) :
    isDhcpc (w.setUdp i f) (.udp i) = isDhcpc w (.udp i) := by
  simp [isDhcpc, Stack.setUdp, hlport]

theorem acts_udpAckdata (cfg : Config) (i : Fin nU) (hsent : (w.udp i).udpSent = true) :
    (w.life none).Acts ((flush (udpAckdata cfg i w)).life none) := by
  unfold udpAckdata udpCall
  split
  next hl =>
    have hlife : (w.setUdp i fun c => { c with udpSent := !c.udpSent }).life none =
        (w.life none).setSent i false := by
      rw [life_setUdp_sent w none i _ rfl rfl]
      simp [hsent]
    have hdhcpc := isDhcpc_setUdp w i (fun c => { c with udpSent := !c.udpSent }) rfl
    generalize (w.setUdp i fun c => { c with udpSent := !c.udpSent }) = w₁ at hlife hdhcpc ⊢
    refine acts_flush ?_
    cases h : isDhcpc w (.udp i) with
    | true =>
      have hact : (w.life none).Acts (w₁.life none) := by
        rw [hlife]
        exact .single (.ackDhcp _ i h)
      exact (called_dhcpcAppcall cfg { withFlags { Flags.none with ackdata := true } w₁ with
        uipLen := 0, uipSlen := 0 } (hdhcpc.trans h)).from hact
    | false =>
      have hs := sends_ackdata cfg { withFlags { Flags.none with ackdata := true } w₁ with
        uipLen := 0, uipSlen := 0 } (hdhcpc.trans h) rfl
      exact hs.called (.ack _ _ i hsent (open_udp hl h) h (hlife ▸ hs.delivers)) rfl
  · exact .refl

theorem acts_udpArpEvent (cfg : Config) (i : Fin nU) (w : Stack nT nU) :
    (w.life none).Acts ((flush (udpArpEvent cfg i w)).life none) := by
  unfold udpArpEvent udpCall
  split
  next hl =>
    obtain ⟨hl, hpending⟩ := hl
    have hlife : (w.setUdp i fun c => { c with udpPendingArp := !c.udpPendingArp }).life none =
        (w.life none).setPendingArp i false := by
      rw [life_setUdp_arp w none i _ rfl rfl]
      simp [hpending]
    have hdhcpc := isDhcpc_setUdp w i (fun c => { c with udpPendingArp := !c.udpPendingArp }) rfl
    generalize (w.setUdp i fun c => { c with udpPendingArp := !c.udpPendingArp }) = w₁
      at hlife hdhcpc ⊢
    refine acts_flush ?_
    cases h : isDhcpc w (.udp i) with
    | true =>
      have hact : (w.life none).Acts (w₁.life none) := by
        rw [hlife]
        exact .single (.arpDhcp _ i h)
      exact (called_dhcpcAppcall cfg { withFlags { Flags.none with rexmit := true } w₁ with
        uipLen := 0, uipSlen := 0 } (hdhcpc.trans h)).from hact
    | false =>
      have hs := sends_resend cfg { withFlags { Flags.none with rexmit := true } w₁ with
        uipLen := 0, uipSlen := 0 } (hdhcpc.trans h) rfl
      exact hs.called (.arp _ _ i hpending (open_udp hl h) h (hlife ▸ hs.delivers)) rfl
  · exact .refl

theorem acts_foldl {α : Type} (f : Stack nT nU → α → Stack nT nU)
    (hf : ∀ (w : Stack nT nU) x, (w.life none).Acts ((f w x).life none))
    (w : Stack nT nU) (xs : List α) :
    (w.life none).Acts ((xs.foldl f w).life none) := by
  induction xs generalizing w with
  | nil => exact .refl
  | cons x xs ih => exact (hf w x).trans (ih (f w x))

theorem acts_pollTcp (cfg : Config) (w : Stack nT nU) (i : Fin nT) :
    (w.life none).Acts ((pollTcp cfg w i).life none) := by
  unfold pollTcp
  split
  · exact acts_pollConn cfg i w
  · exact .refl

theorem acts_pollUdp (hconns : nT + nU ≤ maxGuid) (cfg : Config) (w : Stack nT nU) (i : Fin nU) :
    (w.life none).Acts ((pollUdp cfg w i).life none) := by
  unfold pollUdp
  split
  · exact acts_udpPeriodic hconns cfg i w
  · exact .refl

theorem acts_ackUdp (cfg : Config) (w : Stack nT nU) (i : Fin nU) :
    (w.life none).Acts ((ackUdp cfg w i).life none) := by
  unfold ackUdp
  split
  next h => exact acts_udpAckdata cfg i h
  · exact .refl

theorem acts_perform (hconns : nT + nU ≤ maxGuid) (cfg : Config) (w : Stack nT nU)
    (input : Input) : (w.life none).Acts ((perform cfg w input).life none) := by
  cases input with
  | serviceClients cs => exact Life.acts_commands (commands_runCommands w none cfg cs)
  | checkConnectionPoll =>
    exact (acts_foldl _ (acts_pollTcp cfg) w _).trans (acts_foldl _ (acts_pollUdp hconns cfg) _ _)
  | segment seg => exact acts_tcpInput hconns cfg seg w
  | datagram d => exact acts_udpInput hconns cfg d w
  | arpPacket packet =>
    exact acts_foldl _ (fun w i => acts_udpArpEvent cfg i w)
      { w with arp := uipArpArpin w.arp packet } _
  | otherPacket => exact .refl
  | udpAcks => exact acts_foldl _ (acts_ackUdp cfg) w _
  | periodicTimer =>
    exact (acts_foldl _ (fun w i => acts_udpPeriodic hconns cfg i w) w _).trans
      (acts_foldl _ (fun w i => acts_periodic cfg i w) _ _)
  | arpTimer => exact .refl
  | configure => exact .refl

theorem acts_run (hconns : nT + nU ≤ maxGuid) (cfg : Config) (w : Stack nT nU)
    (inputs : List (Env × Input)) : (w.life none).Acts ((run cfg w inputs).life none) :=
  acts_foldl (step cfg) (fun w input => acts_perform hconns cfg { w with env := input.1 } input.2)
    w inputs

theorem run_invariant (hconns : nT + nU ≤ maxGuid) (cfg : Config) {w : Stack nT nU}
    (I : Life nT nU → Prop) (hinit : I (w.life none))
    (hact : ∀ a b, I a → a.Act b → I b) (inputs : List (Env × Input)) :
    I ((run cfg w inputs).life none) := by
  have h := acts_run hconns cfg w inputs
  generalize (run cfg w inputs).life none = b at h ⊢
  induction h with
  | refl => exact hinit
  | tail _ h ih => exact hact _ _ ih h

end Xtcp.Uip

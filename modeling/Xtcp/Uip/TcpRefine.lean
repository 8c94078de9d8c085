import Xtcp.Uip.UdpCalls

namespace Xtcp.Uip
open Channel Listen

variable {nT nU : Nat} {w : Stack nT nU} {p : Option (Fin nT)}

theorem life_tcpSend (cfg : Config) (i : Fin nT) (flags : Ctl) (len : Nat) (w : Stack nT nU) :
    (tcpSend cfg i flags len w).life p = w.life p := rfl

theorem life_drop (w : Stack nT nU) : w.drop.life p = w.life p := rfl

theorem life_reset (seg : Segment) (w : Stack nT nU) : (reset seg w).life p = w.life p := by
  unfold reset
  split <;> rfl

theorem life_addRcvNxt (i : Fin nT) (n : Nat) (w : Stack nT nU) :
    (addRcvNxt i n w).life p = w.life p := life_setTcp_same w p i _ rfl rfl

theorem life_apprexmit (cfg : Config) (i : Fin nT) (w : Stack nT nU) :
    (apprexmit cfg i w).life p = w.life p := by
  unfold apprexmit
  split
  · rfl
  · split <;> rfl

theorem life_appsendData (i : Fin nT) (w : Stack nT nU) :
    (appsendData i w).life p = w.life p := by
  have hlen (n : Nat) (w : Stack nT nU) :
      (w.setTcp i fun c => { c with len := n }).life p = w.life p :=
    life_setTcp_same w p i _ rfl rfl
  unfold appsendData
  split
  · dsimp only
    split <;> split
    · exact (hlen _ _).trans (hlen 0 w)
    · exact hlen 0 w
    · exact hlen _ w
    · rfl
  · rfl

theorem life_setMss (cfg : Config) (i : Fin nT) (seg : Segment) (w : Stack nT nU) :
    (setMss cfg i seg w).life p = w.life p := by
  unfold setMss
  split
  · rfl
  · exact life_setTcp_same w p i _ rfl rfl

theorem life_setPush (seg : Segment) (w : Stack nT nU) : (setPush seg w).life p = w.life p := by
  unfold setPush
  split <;> rfl

theorem life_ackOutstanding (i : Fin nT) (seg : Segment) (w : Stack nT nU) :
    (ackOutstanding i seg w).life p = w.life p := by
  have hconn (c : TcpConn) :
      (ackConn c).tcpstateflags = c.tcpstateflags ∧ (ackConn c).lport = c.lport := by
    unfold ackConn
    dsimp only
    split <;> exact ⟨rfl, rfl⟩
  unfold ackOutstanding
  dsimp only
  split
  · exact life_setTcp_same w p i ackConn (congrArg TcpFlags.state (hconn _).1) (hconn _).2
  · rfl

theorem acts_appsend (cfg : Config) (i : Fin nT) {a : Life nT nU} (h : Handled i a w p) :
    a.Acts ((appsend cfg i w).life none) := by
  have hstate : (w.life p).state i = .established := h.established
  unfold appsend
  split
  next habort =>
    have hp := h.running (h.single habort)
    subst hp
    rw [life_tcpSend, life_setState]
    exact h.acts.tail (.down _ i .closed rfl (Or.inl rfl))
  split
  next hclose =>
    rw [life_tcpSend, life_setState, life_setTcp_same _ none i _ rfl rfl]
    exact h.acts.tail (.finish (w.life p) i .finWait1 rfl hstate h.closing (h.closed hclose))
  next hclose =>
    have hp := h.running (by simpa using hclose)
    subst hp
    rw [life_apprexmit, life_appsendData, life_setTcp_same _ none i _ rfl rfl]
    exact h.acts

theorem acts_pollFlags (cfg : Config) (i : Fin nT) (hstate : w.state i = .established)
    (hflags : w.uipFlags = { Flags.none with poll := true }) :
    (w.life none).Acts ((appsend cfg i (xtcpdAppcall cfg (.tcp i) w)).life none) := by
  rw [appcall_connected cfg i w (by rw [hflags]; rfl)]
  obtain ⟨p, h⟩ := handled_data cfg i ⟨hstate, rfl⟩ (by rw [hflags]; rfl) (by rw [hflags]; rfl)
  exact acts_appsend cfg i h

theorem acts_pollConn (cfg : Config) (i : Fin nT) (w : Stack nT nU) :
    (w.life none).Acts ((pollConn cfg i w).life none) := by
  unfold pollConn
  split
  next h =>
    exact acts_pollFlags (w := { w with
      uipFlags := { Flags.none with poll := true }, uipLen := 0, uipSlen := 0 }) cfg i h.1 rfl
  · exact .refl

theorem acts_retransmit (cfg : Config) (i : Fin nT) (w : Stack nT nU) :
    (w.life none).Acts ((retransmit cfg i w).life none) := by
  have hlife := life_setTcp_same w none i
    (fun c => { c with timer := rexmitTimer c.nrtx, nrtx := c.nrtx + 1 }) rfl rfl
  unfold retransmit
  dsimp only
  generalize (w.setTcp i fun c => { c with timer := rexmitTimer c.nrtx, nrtx := c.nrtx + 1 }) = w₁
    at hlife ⊢
  rw [← hlife]
  split
  · exact .refl
  · exact .refl
  next hstate =>
    rw [life_apprexmit, appcall_connected cfg i _ rfl]
    have hf := flags_appcallData (.tcp i) cfg
      (withFlags { Flags.none with rexmit := true } w₁) rfl
    obtain ⟨p, h⟩ := handled_data (w := withFlags { Flags.none with rexmit := true } w₁) cfg i
      ⟨hstate, rfl⟩ rfl rfl
    have hp := h.running (by rw [hf]; rfl)
    subst hp
    exact h.acts
  · exact .refl
  · exact .refl
  · exact .refl
  · exact .refl

theorem acts_outstandingTimer (cfg : Config) (i : Fin nT) (w : Stack nT nU) :
    (w.life none).Acts ((outstandingTimer cfg i w).life none) := by
  have hlife := life_setTcp_same w none i (fun c => { c with timer := c.timer - 1 }) rfl rfl
  unfold outstandingTimer
  dsimp only
  generalize (w.setTcp i fun c => { c with timer := c.timer - 1 }) = w₁ at hlife ⊢
  rw [← hlife]
  split
  · split
    · rw [life_tcpSend, appcall_timedout cfg i _ rfl]
      exact acts_killed cfg i rfl (Or.inr rfl) (Or.inl rfl) (life_setState _ none i .closed)
    · exact acts_retransmit cfg i w₁
  · exact .refl

theorem acts_periodicConn (cfg : Config) (i : Fin nT) (w : Stack nT nU) :
    (w.life none).Acts ((periodicConn cfg i w).life none) := by
  unfold periodicConn
  dsimp only
  split
  · rw [life_drop]
    split
    · rw [life_setState, life_setTcp_same w none i _ rfl rfl]
      exact .single (.down _ i .closed rfl (Or.inl rfl))
    · rw [life_setTcp_same w none i _ rfl rfl]
  split
  · exact .refl
  split
  · exact acts_outstandingTimer cfg i w
  split
  next hstate =>
    exact acts_pollFlags (w := withFlags { Flags.none with poll := true } w) cfg i hstate rfl
  · exact .refl

theorem acts_periodic (cfg : Config) (i : Fin nT) (w : Stack nT nU) :
    (w.life none).Acts ((periodic cfg i w).life none) :=
  acts_periodicConn cfg i { w with iss := incrementedApart w.iss, uipLen := 0, uipSlen := 0 }

theorem acts_synRcvdInput (hconns : nT + nU ≤ maxGuid) (cfg : Config) (i : Fin nT)
    (hstate : w.state i = .synRcvd) : (w.life none).Acts ((synRcvdInput cfg i w).life none) := by
  unfold synRcvdInput
  split
  · have hlife : ((w.setTcp i fun c => { c with len := 0 }).setState i .established).life none =
        (w.life none).setState i .established := by
      rw [life_setState, life_setTcp_same w none i _ rfl rfl]
    dsimp only
    split
    · obtain ⟨p, h⟩ := handled_connected (w := { addRcvNxt i w.uipLen
          (withFlags { Flags.none with connected := true, newdata := true }
            ((w.setTcp i fun c => { c with len := 0 }).setState i .established)) with uipSlen := 0 })
        hconns cfg i (Or.inl hstate) rfl ((life_addRcvNxt i _ _).trans hlife) rfl rfl rfl
      exact acts_appsend cfg i h
    · obtain ⟨p, h⟩ := handled_connected
        (w := { withFlags { Flags.none with connected := true }
          ((w.setTcp i fun c => { c with len := 0 }).setState i .established) with uipSlen := 0 })
        hconns cfg i (Or.inl hstate) rfl hlife rfl rfl rfl
      exact acts_appsend cfg i h
  · exact .refl

theorem acts_synSentInput (hconns : nT + nU ≤ maxGuid) (cfg : Config) (i : Fin nT)
    (seg : Segment) (hstate : w.state i = .synSent) :
    (w.life none).Acts ((synSentInput cfg i seg w).life none) := by
  unfold synSentInput
  split
  · have hlife : (((setMss cfg i seg w).setState i .established).setTcp i fun c =>
        { c with rcvNxt := seg.seqno + 1, len := 0 }).life none =
        (w.life none).setState i .established := by
      rw [life_setTcp_same _ none i _ rfl rfl, life_setState, life_setMss]
    obtain ⟨p, h⟩ := handled_connected
      (w := { withFlags { Flags.none with connected := true, newdata := true }
        (((setMss cfg i seg w).setState i .established).setTcp i fun c =>
          { c with rcvNxt := seg.seqno + 1, len := 0 }) with uipLen := 0, uipSlen := 0 })
      hconns cfg i (Or.inr hstate) rfl hlife rfl rfl rfl
    exact acts_appsend cfg i h
  · rw [life_reset, life_setState, appcall_aborted cfg i _ rfl]
    have hsame : (w.life none).note (.killed (.tcp i) (w.state i)) =
        ((w.life none).note (.killed (.tcp i) ((w.life none).state i))).setState i .synSent := by
      have hs : ((w.life none).note (.killed (.tcp i) (w.state i))).state i = .synSent := hstate
      rw [← hs]
      exact (Life.setState_self _ i).symm
    have hacts := acts_killed (w := withFlags { Flags.none with abort := true }
      (w.note (.killed (.tcp i) (w.state i)))) cfg i rfl (Or.inl rfl)
      (Or.inr ⟨hstate, rfl⟩) hsame
    exact hacts.tail (.down _ i .closed rfl (Or.inl rfl))

structure Flags.FromInput (f : Flags) : Prop where
  poll : f.poll = false
  close : f.close = false
  abort : f.abort = false
  connected : f.connected = false
  timedout : f.timedout = false

theorem acts_finInput (cfg : Config) (i : Fin nT) (hstate : w.state i = .established)
    (hflags : w.uipFlags.FromInput) : (w.life none).Acts ((finInput cfg i w).life none) := by
  unfold finInput
  split
  · exact .refl
  · dsimp only
    have hrcv := life_addRcvNxt (p := none) i (1 + w.uipLen) w
    generalize addRcvNxt i (1 + w.uipLen) w = w₁ at hrcv ⊢
    have hf : ∃ f : Flags, f.close = true ∧ f.poll = false ∧ f.abort = false ∧
        f.connected = false ∧ f.timedout = false ∧
        (if 0 < w.uipLen then { { w.uipFlags with close := true } with newdata := true }
          else { w.uipFlags with close := true }) = f := by
      refine ⟨_, ?_, ?_, ?_, ?_, ?_, rfl⟩
      · split <;> rfl
      · split <;> exact hflags.poll
      · split <;> exact hflags.abort
      · split <;> exact hflags.connected
      · split <;> exact hflags.timedout
    obtain ⟨f, hclose, hpoll, habort, hconnected, htimedout, hf⟩ := hf
    rw [hf]
    have hw : (withFlags f w₁).life none = w.life none := hrcv
    have ho : ((withFlags f w₁).life none).IsOpen (.tcp i) := by
      rw [hw]
      exact ⟨hstate, rfl⟩
    rw [life_tcpSend, life_setState, life_setTcp_same _ none i _ rfl rfl,
      appcall_connected cfg i _ hconnected]
    have hflags' := flags_appcallData (.tcp i) cfg (withFlags f w₁) hpoll
    obtain ⟨p, h⟩ := handled_data cfg i ho habort htimedout
    have hclosed := h.closed (by rw [hflags']; exact hclose)
    rw [hw] at h
    exact h.acts.tail (.finish _ i .lastAck rfl h.established h.closing hclosed)

theorem take_same (cfg : Config) (i : Fin nT) (seg : Segment) (h : w.uipFlags.FromInput) :
    (takeWindow i seg (takeData cfg i (takeUrgent seg w))).life p = w.life p ∧
      (takeWindow i seg (takeData cfg i (takeUrgent seg w))).uipFlags.FromInput := by
  have hurgent : (takeUrgent seg w).life p = w.life p ∧
      (takeUrgent seg w).uipFlags.FromInput := by
    unfold takeUrgent
    split <;> exact ⟨rfl, h⟩
  generalize takeUrgent seg w = w₁ at hurgent ⊢
  obtain ⟨hlife₁, hf₁⟩ := hurgent
  have hdata : (takeData cfg i w₁).life p = w₁.life p ∧
      (takeData cfg i w₁).uipFlags.FromInput := by
    unfold takeData
    split
    · exact ⟨life_addRcvNxt i _ _, ⟨hf₁.poll, hf₁.close, hf₁.abort, hf₁.connected, hf₁.timedout⟩⟩
    · exact ⟨rfl, hf₁⟩
  exact ⟨((life_setTcp_same _ p i _ rfl rfl).trans hdata.1).trans hlife₁, hdata.2⟩

theorem acts_establishedInput (cfg : Config) (i : Fin nT) (seg : Segment)
    (hstate : w.state i = .established) (hflags : w.uipFlags.FromInput) :
    (w.life none).Acts ((establishedInput cfg i seg w).life none) := by
  unfold establishedInput
  split
  · exact acts_finInput cfg i hstate hflags
  · obtain ⟨hlife, hf⟩ := take_same (p := none) cfg i seg hflags
    dsimp only
    generalize takeWindow i seg (takeData cfg i (takeUrgent seg w)) = w₁ at hlife hf ⊢
    rw [← hlife]
    split
    · have ho : (w₁.life none).IsOpen (.tcp i) := by
        rw [hlife]
        exact ⟨hstate, rfl⟩
      rw [appcall_connected cfg i { w₁ with uipSlen := 0 } hf.connected]
      obtain ⟨p, h⟩ := handled_data (w := { w₁ with uipSlen := 0 }) cfg i ho hf.abort hf.timedout
      exact acts_appsend cfg i h
    · exact .refl

theorem acts_lastAckInput (cfg : Config) (i : Fin nT) (hstate : w.state i = .lastAck) :
    (w.life none).Acts ((lastAckInput cfg i w).life none) := by
  have hfin : isFin ((w.life none).state i) = true := congrArg isFin hstate
  unfold lastAckInput
  split
  · exact acts_lateClose _ cfg i hfin (Or.inr (Or.inr rfl)) rfl (life_setState w none i .closed) rfl
  · exact .refl

theorem acts_finWait1Input (cfg : Config) (i : Fin nT) (seg : Segment)
    (hstate : w.state i = .finWait1) :
    (w.life none).Acts ((finWait1Input cfg i seg w).life none) := by
  unfold finWait1Input
  dsimp only
  have hrcv : (if 0 < w.uipLen then addRcvNxt i w.uipLen w else w).life none = w.life none := by
    split
    · exact life_addRcvNxt i _ w
    · rfl
  generalize (if 0 < w.uipLen then addRcvNxt i w.uipLen w else w) = w₁ at hrcv ⊢
  have hfin : isFin ((w.life none).state i) = true := congrArg isFin hstate
  split
  · rw [life_tcpSend]
    split
    · refine acts_lateClose _ cfg i hfin (Or.inr (Or.inl rfl)) rfl ?_ rfl
      refine (life_addRcvNxt i 1 _).trans ?_
      rw [life_setState, life_setTcp_same _ none i _ rfl rfl, hrcv]
    · refine acts_lateClose .closing cfg i hfin (Or.inl rfl) rfl ?_ rfl
      refine (life_addRcvNxt i 1 _).trans ?_
      rw [life_setState, hrcv]
  split
  · rw [life_drop, life_setState, life_setTcp_same _ none i _ rfl rfl, hrcv]
    exact .single (.down _ i .finWait2 rfl (Or.inr ⟨hfin, Or.inl rfl⟩))
  · rw [← hrcv]
    split <;> exact .refl

theorem acts_finWait2Input (cfg : Config) (i : Fin nT) (seg : Segment)
    (hstate : w.state i = .finWait2) :
    (w.life none).Acts ((finWait2Input cfg i seg w).life none) := by
  unfold finWait2Input
  dsimp only
  have hrcv : (if 0 < w.uipLen then addRcvNxt i w.uipLen w else w).life none = w.life none := by
    split
    · exact life_addRcvNxt i _ w
    · rfl
  generalize (if 0 < w.uipLen then addRcvNxt i w.uipLen w else w) = w₁ at hrcv ⊢
  have hfin : isFin ((w.life none).state i) = true := congrArg isFin hstate
  split
  · rw [life_tcpSend]
    refine acts_lateClose _ cfg i hfin (Or.inr (Or.inl rfl)) rfl ?_ rfl
    refine (life_addRcvNxt i 1 _).trans ?_
    rw [life_setState, life_setTcp_same _ none i _ rfl rfl, hrcv]
  · rw [← hrcv]
    split <;> exact .refl

theorem acts_closingInput (i : Fin nT) (hstate : w.state i = .closing) :
    (w.life none).Acts ((closingInput i w).life none) := by
  have hfin : isFin ((w.life none).state i) = true := congrArg isFin hstate
  unfold closingInput
  split
  · rw [life_drop, life_setState, life_setTcp_same _ none i _ rfl rfl]
    exact .single (.down _ i .timeWait rfl (Or.inr ⟨hfin, Or.inr rfl⟩))
  · exact .refl

theorem acts_stateInput (hconns : nT + nU ≤ maxGuid) (cfg : Config) (i : Fin nT) (seg : Segment)
    (hflags : w.uipFlags.FromInput) :
    (w.life none).Acts ((stateInput cfg i seg w).life none) := by
  unfold stateInput
  split
  next h => exact acts_synRcvdInput hconns cfg i h
  next h => exact acts_synSentInput hconns cfg i seg h
  next h => exact acts_establishedInput cfg i seg h hflags
  next h => exact acts_lastAckInput cfg i h
  next h => exact acts_finWait1Input cfg i seg h
  next h => exact acts_finWait2Input cfg i seg h
  · exact .refl
  next h => exact acts_closingInput i h
  · exact .refl

theorem fromInput (i : Fin nT) (seg : Segment) (h : w.uipFlags = Flags.none) :
    (setPush seg (ackOutstanding i seg w)).uipFlags.FromInput := by
  have hack : (ackOutstanding i seg w).uipFlags.FromInput := by
    unfold ackOutstanding
    dsimp only
    split
    · exact ⟨rfl, rfl, rfl, rfl, rfl⟩
    · rw [h]
      exact ⟨rfl, rfl, rfl, rfl, rfl⟩
  unfold setPush
  split
  · exact ⟨hack.poll, hack.close, hack.abort, hack.connected, hack.timedout⟩
  · exact hack

theorem acts_foundInput (hconns : nT + nU ≤ maxGuid) (cfg : Config) (i : Fin nT) (seg : Segment)
    (w : Stack nT nU) : (w.life none).Acts ((foundInput cfg i seg w).life none) := by
  have hlife : ({ w with uipFlags := Flags.none, uipLen := seg.len } : Stack nT nU).life none =
      w.life none := rfl
  have hflags : ({ w with uipFlags := Flags.none, uipLen := seg.len } : Stack nT nU).uipFlags =
      Flags.none := rfl
  unfold foundInput
  rw [← hlife]
  generalize ({ w with uipFlags := Flags.none, uipLen := seg.len } : Stack nT nU) = w₁ at hflags ⊢
  dsimp only
  split
  · rw [life_drop, appcall_aborted cfg i _ rfl]
    exact acts_killed cfg i rfl (Or.inl rfl) (Or.inl rfl) (life_setState _ none i .closed)
  split
  · exact .refl
  · have hacts := acts_stateInput hconns cfg i seg (fromInput i seg hflags)
    rw [life_setPush, life_ackOutstanding] at hacts
    exact hacts

theorem acts_foundListen (cfg : Config) (seg : Segment) (w : Stack nT nU) :
    (w.life none).Acts ((foundListen cfg seg w).life none) := by
  unfold foundListen
  cases hi : unusedTcp w with
  | none => exact .refl
  | some i =>
    dsimp only
    rw [life_tcpSend, life_setMss, life_setTcp, life_open]
    exact .single (.listen _ i seg.destport (unusedTcp_free w none hi))

theorem acts_tcpInput (hconns : nT + nU ≤ maxGuid) (cfg : Config) (seg : Segment)
    (w : Stack nT nU) : (w.life none).Acts ((tcpInput cfg seg w).life none) := by
  unfold tcpInput
  split
  · exact acts_foundInput hconns cfg _ seg w
  · split
    · rw [life_reset]
    · split
      · exact acts_foundListen cfg seg w
      · rw [life_reset]

end Xtcp.Uip

import Xtcp.Uip.Clock

namespace Xtcp.Uip
open Channel Listen

variable {nT nU : Nat} {i j : Fin nT} {k : Clock} {w : Stack nT nU} {cfg : Config}

theorem clock_setState_ne (hij : i ≠ j) (h : w.clock i = k) (st : TcpState) :
    (w.setState j st).clock i = k :=
  clock_setTcp_ne hij h

theorem clock_apprexmit (h : w.clock i = k) : (apprexmit cfg j w).clock i = k := by
  unfold apprexmit
  split
  · exact h
  split
  · exact h
  · exact h

theorem clock_reset (h : w.clock i = k) (seg : Segment) : (reset seg w).clock i = k := by
  unfold reset
  split
  · exact h
  · exact h

section Others

variable (hij : i ≠ j)

include hij

theorem clock_appsendData (h : w.clock i = k) : (appsendData j w).clock i = k := by
  unfold appsendData
  split
  · have hacked : (if w.uipFlags.ackdata = true then w.setTcp j fun c => { c with len := 0 }
        else w).clock i = k := by
      split
      · exact clock_setTcp_ne hij h
      · exact h
    dsimp only
    generalize (if w.uipFlags.ackdata = true then w.setTcp j fun c => { c with len := 0 }
      else w) = v at hacked ⊢
    have hset : (v.setTcp j fun c => { c with len := min v.uipSlen (v.tcp j).mss }).clock i = k :=
      clock_setTcp_ne hij hacked
    split
    · exact hset
    · exact hacked
  · exact h

theorem clock_appsend (h : w.clock i = k) : (appsend cfg j w).clock i = k := by
  unfold appsend
  split
  · exact clock_setState_ne (w := { w with uipSlen := 0 }) hij h .closed
  split
  · exact clock_setState_ne hij (clock_setTcp_ne (w := { w with uipSlen := 0 }) hij h) .finWait1
  · exact clock_apprexmit (clock_appsendData hij (clock_setTcp_ne hij h))

theorem clock_kill (h : w.clock i = k) : (w.kill j).clock i = k :=
  clock_setState_ne (w := w.note _) hij h .closed

theorem clock_pollConn (hk : k.Held) (h : w.clock i = k) : (pollConn cfg j w).clock i = k := by
  unfold pollConn
  split
  · exact clock_appsend hij (clock_xtcpdAppcall hk h)
  · exact h

theorem clock_retransmit (hk : k.Held) (h : w.clock i = k) : (retransmit cfg j w).clock i = k := by
  have hset : (w.setTcp j fun c =>
      { c with timer := rexmitTimer c.nrtx, nrtx := c.nrtx + 1 }).clock i = k :=
    clock_setTcp_ne hij h
  unfold retransmit
  dsimp only
  split
  case h_3 => exact clock_apprexmit (clock_xtcpdAppcall hk hset)
  all_goals exact hset

theorem clock_outstandingTimer (hk : k.Held) (h : w.clock i = k) :
    (outstandingTimer cfg j w).clock i = k := by
  have hset : (w.setTcp j fun c => { c with timer := c.timer - 1 }).clock i = k :=
    clock_setTcp_ne hij h
  unfold outstandingTimer
  dsimp only
  split
  · split
    · exact clock_xtcpdAppcall hk (w := withFlags _ _) (clock_kill hij hset)
    · exact clock_retransmit hij hk hset
  · exact hset

theorem clock_periodic (hk : k.Held) (h : w.clock i = k) : (periodic cfg j w).clock i = k := by
  rw [periodic]
  have h' : Stack.clock { w with iss := incrementedApart w.iss, uipLen := 0, uipSlen := 0 } i = k :=
    h
  generalize { w with iss := incrementedApart w.iss, uipLen := 0, uipSlen := 0 } = v at h' ⊢
  unfold periodicConn
  dsimp only
  split
  · have hset : (v.setTcp j fun c => { c with timer := c.timer + 1 }).clock i = k :=
      clock_setTcp_ne hij h'
    split
    · exact clock_setState_ne hij hset .closed
    · exact hset
  split
  · exact h'
  split
  · exact clock_outstandingTimer hij hk h'
  split
  · exact clock_appsend hij (clock_xtcpdAppcall (w := withFlags _ v) hk h')
  · exact h'

theorem clock_addRcvNxt (h : w.clock i = k) (n : Nat) : (addRcvNxt j n w).clock i = k :=
  clock_setTcp_ne hij h

theorem clock_ackOutstanding (h : w.clock i = k) (seg : Segment) :
    (ackOutstanding j seg w).clock i = k := by
  unfold ackOutstanding
  dsimp only
  split
  · exact clock_setTcp_ne hij h
  · exact h

theorem clock_setMss (h : w.clock i = k) (seg : Segment) : (setMss cfg j seg w).clock i = k := by
  unfold setMss
  split
  · exact h
  · exact clock_setTcp_ne hij h

theorem clock_synRcvdInput (hk : k.Held) (h : w.clock i = k) :
    (synRcvdInput cfg j w).clock i = k := by
  have hset : ((w.setTcp j fun c => { c with len := 0 }).setState j .established).clock i = k :=
    clock_setState_ne hij (clock_setTcp_ne hij h) .established
  unfold synRcvdInput
  split
  · dsimp only
    split
    · have hadd := clock_addRcvNxt (w := withFlags { Flags.none with connected := true, newdata := true }
        ((w.setTcp j fun c => { c with len := 0 }).setState j .established)) hij hset w.uipLen
      exact clock_appsend hij (clock_xtcpdAppcall (w := { addRcvNxt _ _ _ with uipSlen := 0 }) hk hadd)
    · exact clock_appsend hij (clock_xtcpdAppcall (w := { withFlags _ _ with uipSlen := 0 }) hk hset)
  · exact h

theorem clock_synSentInput (hk : k.Held) (h : w.clock i = k) (seg : Segment) :
    (synSentInput cfg j seg w).clock i = k := by
  unfold synSentInput
  split
  · have hset : (((setMss cfg j seg w).setState j .established).setTcp j fun c =>
        { c with rcvNxt := seg.seqno + 1, len := 0 }).clock i = k :=
      clock_setTcp_ne hij (clock_setState_ne hij (clock_setMss hij h seg) .established)
    exact clock_appsend hij (clock_xtcpdAppcall
      (w := { withFlags _ _ with uipLen := 0, uipSlen := 0 }) hk hset)
  · exact clock_reset (clock_setState_ne hij
      (clock_xtcpdAppcall (w := withFlags _ (w.note _)) hk h) .closed) seg

theorem clock_finInput (hk : k.Held) (h : w.clock i = k) : (finInput cfg j w).clock i = k := by
  have hcall (flags : Flags) : (xtcpdAppcall cfg (.tcp j)
      (withFlags flags (addRcvNxt j (1 + w.uipLen) w))).clock i = k :=
    clock_xtcpdAppcall (w := withFlags flags (addRcvNxt j _ w)) hk (clock_addRcvNxt hij h _)
  unfold finInput
  split
  · exact h
  · exact clock_setState_ne hij (clock_setTcp_ne hij (hcall _)) .lastAck

theorem clock_establishedInput (hk : k.Held) (h : w.clock i = k) (seg : Segment) :
    (establishedInput cfg j seg w).clock i = k := by
  have hurgent : ∀ v : Stack nT nU, v.clock i = k → (takeUrgent seg v).clock i = k := by
    intro v hv
    unfold takeUrgent
    split
    · exact hv
    · exact hv
  have hdata : ∀ v : Stack nT nU, v.clock i = k → (takeData cfg j v).clock i = k := by
    intro v hv
    unfold takeData
    split
    · exact clock_addRcvNxt (w := withFlags _ v) hij hv _
    · exact hv
  have hwindow : (takeWindow j seg (takeData cfg j (takeUrgent seg w))).clock i = k :=
    clock_setTcp_ne hij (hdata _ (hurgent _ h))
  unfold establishedInput
  split
  · exact clock_finInput hij hk h
  · dsimp only
    split
    · exact clock_appsend hij (clock_xtcpdAppcall (w := { takeWindow _ _ _ with uipSlen := 0 }) hk
        hwindow)
    · exact hwindow

theorem clock_lastAckInput (hk : k.Held) (h : w.clock i = k) :
    (lastAckInput cfg j w).clock i = k := by
  unfold lastAckInput
  split
  · exact clock_xtcpdAppcall (w := withFlags _ _) hk (clock_setState_ne hij h .closed)
  · exact h

theorem clock_received (h : w.clock i = k) (n : Nat) :
    (if 0 < n then addRcvNxt j n w else w).clock i = k := by
  split
  · exact clock_addRcvNxt hij h n
  · exact h

theorem clock_finWait1Input (hk : k.Held) (h : w.clock i = k) (seg : Segment) :
    (finWait1Input cfg j seg w).clock i = k := by
  have hrcv := clock_received hij h w.uipLen
  unfold finWait1Input
  dsimp only
  generalize (if 0 < w.uipLen then addRcvNxt j w.uipLen w else w) = v at hrcv ⊢
  split
  · have hset : (if w.uipFlags.ackdata = true then
        (v.setTcp j fun c => { c with timer := 0, len := 0 }).setState j .timeWait
        else v.setState j .closing).clock i = k := by
      split
      · exact clock_setState_ne hij (clock_setTcp_ne hij hrcv) .timeWait
      · exact clock_setState_ne hij hrcv .closing
    exact clock_xtcpdAppcall (w := withFlags _ _) hk (clock_addRcvNxt hij hset 1)
  split
  · exact clock_setState_ne hij (clock_setTcp_ne hij hrcv) .finWait2
  split
  · exact hrcv
  · exact hrcv

theorem clock_finWait2Input (hk : k.Held) (h : w.clock i = k) (seg : Segment) :
    (finWait2Input cfg j seg w).clock i = k := by
  have hrcv := clock_received hij h w.uipLen
  unfold finWait2Input
  dsimp only
  generalize (if 0 < w.uipLen then addRcvNxt j w.uipLen w else w) = v at hrcv ⊢
  split
  · exact clock_xtcpdAppcall (w := withFlags _ _) hk (clock_addRcvNxt hij
      (clock_setState_ne hij (clock_setTcp_ne hij hrcv) .timeWait) 1)
  split
  · exact hrcv
  · exact hrcv

theorem clock_closingInput (h : w.clock i = k) : (closingInput j w).clock i = k := by
  unfold closingInput
  split
  · exact clock_setState_ne hij (clock_setTcp_ne hij h) .timeWait
  · exact h

theorem clock_stateInput (hk : k.Held) (h : w.clock i = k) (seg : Segment) :
    (stateInput cfg j seg w).clock i = k := by
  unfold stateInput
  split
  · exact clock_synRcvdInput hij hk h
  · exact clock_synSentInput hij hk h seg
  · exact clock_establishedInput hij hk h seg
  · exact clock_lastAckInput hij hk h
  · exact clock_finWait1Input hij hk h seg
  · exact clock_finWait2Input hij hk h seg
  · exact h
  · exact clock_closingInput hij h
  · exact h

theorem clock_foundInput (hk : k.Held) (h : w.clock i = k) (seg : Segment) :
    (foundInput cfg j seg w).clock i = k := by
  have hpush : ∀ v : Stack nT nU, v.clock i = k → (setPush seg v).clock i = k := by
    intro v hv
    unfold setPush
    split
    · exact hv
    · exact hv
  unfold foundInput
  dsimp only
  split
  · exact clock_xtcpdAppcall (w := withFlags _ _) hk (clock_kill (w := { w with
      uipFlags := Flags.none, uipLen := seg.len }) hij h)
  split
  · exact h
  · exact clock_stateInput hij hk (hpush _ (clock_ackOutstanding (w := { w with
      uipFlags := Flags.none, uipLen := seg.len }) hij h seg)) seg

end Others

-- A segment that is not for the connection.
theorem clock_tcpInput (hk : k.Held) (h : w.clock i = k) {seg : Segment}
    (hseg : seg.matches (w.tcp i) = false) : (tcpInput cfg seg w).clock i = k := by
  unfold tcpInput
  split
  next j hj =>
    have hfound := List.find?_some hj
    have hij : i ≠ j := by
      rintro rfl
      exact Bool.false_ne_true (hseg.symm.trans hfound)
    exact clock_foundInput hij hk h seg
  next =>
    split
    · exact clock_reset h seg
    split
    · unfold foundListen
      split
      · exact h
      next j hj =>
        have hij := unusedTcp_ne hk h hj
        exact clock_setMss (w := Stack.setTcp (w.open _ _) j _) hij (clock_setTcp_ne hij h) seg
    · exact clock_reset h seg

section Datagrams

variable {l : Fin nU}

theorem clock_udpSend (h : w.clock i = k) : (udpSend l w).2.clock i = k := by
  unfold udpSend
  split
  · exact h
  · exact h

theorem clock_udpCall (hk : k.Held) (h : w.clock i = k) (flags : Flags) :
    (udpCall cfg l flags w).2.clock i = k :=
  clock_udpSend (clock_xtcpdAppcall (w := { withFlags flags w with uipLen := 0, uipSlen := 0 }) hk h)

theorem clock_udpPeriodic (hk : k.Held) (h : w.clock i = k) :
    (udpPeriodic cfg l w).2.clock i = k := by
  unfold udpPeriodic
  split
  · exact clock_udpCall hk h _
  · exact h

theorem clock_udpAckdata (hk : k.Held) (h : w.clock i = k) :
    (udpAckdata cfg l w).2.clock i = k := by
  unfold udpAckdata
  split
  · exact clock_udpCall (w := w.setUdp l _) hk h _
  · exact h

theorem clock_udpArpEvent (hk : k.Held) (h : w.clock i = k) :
    (udpArpEvent cfg l w).2.clock i = k := by
  unfold udpArpEvent
  split
  · exact clock_udpCall (w := w.setUdp l _) hk h _
  · exact h

theorem clock_flush {r : Option (Fin nU) × Stack nT nU} (h : r.2.clock i = k) :
    (flush r).clock i = k := by
  obtain ⟨o, v⟩ := r
  cases o with
  | none => exact h
  | some l =>
    rw [flush, uipArpOut]
    split
    · exact h
    · exact h

theorem clock_udpInput (hk : k.Held) (h : w.clock i = k) (d : Datagram) :
    (udpInput cfg d w).2.clock i = k := by
  unfold udpInput
  dsimp only
  split
  · exact clock_udpSend (clock_xtcpdAppcall (w := { withFlags _ _ with uipSlen := 0 }) hk h)
  split
  · split
    · exact h
    · exact clock_udpSend (clock_xtcpdAppcall (w := { withFlags _ (Stack.setUdp _ _ _) with
        uipSlen := 0 }) hk h)
  · exact h

theorem clock_foldl {α : Type} {f : Stack nT nU → α → Stack nT nU} {xs : List α}
    (hf : ∀ x ∈ xs, ∀ v : Stack nT nU, v.clock i = k → (f v x).clock i = k)
    (h : w.clock i = k) : (xs.foldl f w).clock i = k := by
  induction xs generalizing w with
  | nil => exact h
  | cons x xs ih =>
    exact ih (fun y hy => hf y (List.mem_cons_of_mem x hy)) (hf x List.mem_cons_self w h)

end Datagrams

end Xtcp.Uip
